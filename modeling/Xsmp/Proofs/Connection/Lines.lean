import Xsmp.Connection.Reading

/-!
# Reading in pieces

Bytes are read in pieces to the same end as all at once. This holds of the lines, and of what
becomes of them on a connection of either kind: each line comes to some events, and the first
event that closes the connection ends the reading.
-/

namespace Xsmp

/-! ## Lines -/

namespace LineReader

variable {reader : LineReader}

theorem feedAfter_append (done : List Bytes) (reader : LineReader) (bytes more : Bytes) :
    feedAfter done reader (bytes ++ more) = match feedAfter done reader bytes with
      | (lines, some next) => feedAfter lines.reverse next more
      | (lines, none) => (lines, none) := by
  induction bytes generalizing done reader with
  | nil =>
      rw [List.nil_append, feedAfter]
      show feedAfter done reader more = feedAfter done.reverse.reverse reader more
      rw [List.reverse_reverse]
  | cons b bytes ih =>
      rw [List.cons_append, feedAfter, feedAfter]
      split
      · exact ih _ _
      · split
        · rfl
        · exact ih _ _

/-- The lines that were read before stand in front and change nothing. -/
theorem feedAfter_eq (done : List Bytes) (reader : LineReader) (bytes : Bytes) :
    feedAfter done reader bytes =
      (done.reverse ++ (reader.feed bytes).1, (reader.feed bytes).2) := by
  rw [feed]
  induction bytes generalizing done reader with
  | nil => rw [feedAfter, feedAfter, List.reverse_nil, List.append_nil]
  | cons b bytes ih =>
      rw [feedAfter, feedAfter]
      split
      · rw [ih, ih [reader.line], List.reverse_cons, List.append_assoc]
        rfl
      · split
        · rw [List.reverse_nil, List.append_nil]
        · exact ih _ _

/-- Bytes are read one piece after the other. -/
theorem feed_append (reader : LineReader) (bytes more : Bytes) :
    reader.feed (bytes ++ more) = match reader.feed bytes with
      | (lines, some next) => (lines ++ (next.feed more).1, (next.feed more).2)
      | (lines, none) => (lines, none) := by
  rw [feed, feedAfter_append, ← feed]
  rcases reader.feed bytes with ⟨lines, _ | next⟩
  · rfl
  · show feedAfter lines.reverse next more = _
    rw [feedAfter_eq, List.reverse_reverse]

/-- A line whose end has not come yet is kept. -/
theorem feed_line {line : Bytes} (h : lineFeed ∉ line)
    (hlength : reader.length + line.length ≤ maxLine) :
    reader.feed line = ([], some {
      kept := line.reverse ++ reader.kept, length := reader.length + line.length }) := by
  rw [feed]
  induction line generalizing reader with
  | nil => rfl
  | cons b line ih =>
      have hb : b ≠ lineFeed := fun heq => h (heq ▸ List.mem_cons_self)
      have hline : lineFeed ∉ line := fun hmem => h (List.mem_cons_of_mem b hmem)
      rw [List.length_cons] at hlength
      rw [feedAfter, if_neg hb, if_neg (by omega), ih hline (by dsimp only; omega),
        List.reverse_cons, List.append_assoc, List.length_cons]
      simp only [List.singleton_append, Nat.add_assoc, Nat.add_comm 1]

/-- Too long a line is not read, and nothing after it. -/
theorem feed_long {line : Bytes} (h : lineFeed ∉ line)
    (hlength : maxLine < reader.length + line.length) (hreader : reader.length ≤ maxLine)
    (more : Bytes) : reader.feed (line ++ more) = ([], none) := by
  rw [feed]
  induction line generalizing reader with
  | nil => exact absurd hlength (Nat.not_lt.mpr hreader)
  | cons b line ih =>
      have hb : b ≠ lineFeed := fun heq => h (heq ▸ List.mem_cons_self)
      have hline : lineFeed ∉ line := fun hmem => h (List.mem_cons_of_mem b hmem)
      rw [List.length_cons] at hlength
      rw [List.cons_append, feedAfter, if_neg hb]
      split
      · rfl
      · exact ih hline (by dsimp only; omega) (by dsimp only; omega)

/-- The bytes of a line that a line feed ends: a carriage return before it does not belong to
the line. -/
def stripped (line : Bytes) : Bytes :=
  if line.getLast? = some carriageReturn then line.dropLast else line

theorem line_of_kept {line : Bytes} (h : reader.kept = line.reverse) :
    reader.line = stripped line := by
  rw [LineReader.line, h, stripped]
  rcases List.eq_nil_or_concat line with rfl | ⟨before, last, rfl⟩
  · rfl
  · rw [List.concat_eq_append, List.reverse_concat, List.getLast?_concat, List.dropLast_concat]
    simp only [Option.some.injEq, List.reverse_reverse, List.reverse_cons]

/-- **A line that is not too long is read when its line feed comes.** -/
theorem feed_ended {line : Bytes} (h : lineFeed ∉ line) (hlength : line.length ≤ maxLine) :
    ({} : LineReader).feed (line ++ [lineFeed]) = ([stripped line], some {}) := by
  have hkept : ({} : LineReader).feed line =
      ([], some { kept := line.reverse ++ [], length := 0 + line.length }) :=
    feed_line h (by rw [Nat.zero_add]; exact hlength)
  rw [feed_append, hkept]
  show ([LineReader.line _], some ({} : LineReader)) = _
  rw [line_of_kept (List.append_nil _)]

end LineReader

/-! ## Events -/

/-- How a connection takes its lines: what the text of a line comes to, and the event after which
nothing is read. -/
structure LineUse (ε : Type) where
  ofText : String → List ε
  closed : ε
  /-- A line that closes the connection does nothing else. -/
  alone : ∀ text, closed ∈ ofText text → ofText text = [closed]

namespace LineUse

variable {ε : Type} [DecidableEq ε] (use : LineUse ε)

/-- What a line comes to. One that is no text closes the connection. -/
def ofLine (line : Bytes) : List ε :=
  match Utf8.decode? line with
  | none => [use.closed]
  | some text => use.ofText text

/-- What lines come to. -/
def ofLines : List Bytes → List ε
  | [] => []
  | line :: rest =>
    if (use.ofLine line).contains use.closed then use.ofLine line
    else use.ofLine line ++ ofLines rest

/-- Read bytes. The reader for what follows is missing once the reading has ended. -/
def feed (reader : LineReader) (bytes : Bytes) : List ε × Option LineReader :=
  let (lines, next) := reader.feed bytes
  let events := use.ofLines lines
  if events.contains use.closed then (events, none)
  else match next with
    | some next => (events, some next)
    | none => (events ++ [use.closed], none)

/-- What is left when the input ends. -/
def finish (reader : LineReader) : List ε :=
  let events := use.ofLines reader.last?.toList
  if events.contains use.closed then events else events ++ [use.closed]

/-- What happens on a connection whose bytes arrive in pieces and then end. -/
def events (reader : LineReader) : List Bytes → List ε
  | [] => use.finish reader
  | bytes :: rest =>
    match use.feed reader bytes with
    | (new, some next) => new ++ events next rest
    | (new, none) => new

variable {use} {reader : LineReader}

theorem contains_append {before after : List ε} (h : ¬ before.contains use.closed = true) :
    (before ++ after).contains use.closed = after.contains use.closed := by
  rw [List.contains_append, Bool.eq_false_iff.mpr h, Bool.false_or]

theorem ofLines_append (lines more : List Bytes) :
    use.ofLines (lines ++ more) =
      if (use.ofLines lines).contains use.closed then use.ofLines lines
      else use.ofLines lines ++ use.ofLines more := by
  induction lines with
  | nil => simp [ofLines]
  | cons line lines ih =>
      rw [List.cons_append, ofLines, ofLines, ih]
      by_cases hline : (use.ofLine line).contains use.closed = true
      · simp only [hline, if_true]
      · rw [if_neg hline, if_neg hline, contains_append hline]
        split
        · rfl
        · rw [List.append_assoc]

theorem ofLines_singleton (line : Bytes) : use.ofLines [line] = use.ofLine line := by
  rw [ofLines, ofLines, List.append_nil, ite_self]

theorem feed_eq {lines : List Bytes} {next : Option LineReader} {bytes : Bytes}
    (h : reader.feed bytes = (lines, next)) :
    use.feed reader bytes =
      if (use.ofLines lines).contains use.closed then (use.ofLines lines, none)
      else match next with
        | some next => (use.ofLines lines, some next)
        | none => (use.ofLines lines ++ [use.closed], none) := by
  rewrite [feed, h]
  rfl

/-- Bytes are read one piece after the other. -/
theorem feed_append (reader : LineReader) (bytes more : Bytes) :
    use.feed reader (bytes ++ more) = match use.feed reader bytes with
      | (events, some next) => (events ++ (use.feed next more).1, (use.feed next more).2)
      | (events, none) => (events, none) := by
  have happend := reader.feed_append bytes more
  cases hfeed : reader.feed bytes with
  | mk lines next =>
      cases next with
      | none =>
          -- too long a line in the first piece ends the reading either way
          rw [hfeed] at happend
          rw [feed_eq happend, feed_eq hfeed]
          split <;> rfl
      | some next =>
          cases hmore : next.feed more with
          | mk lines' next' =>
              rw [hfeed] at happend
              change _ = (lines ++ (next.feed more).1, (next.feed more).2) at happend
              rw [hmore] at happend
              rw [feed_eq happend, feed_eq hfeed, ofLines_append]
              by_cases hlines : (use.ofLines lines).contains use.closed = true
              · -- and so does a bad line, whatever the second piece completes
                rw [if_pos hlines, if_pos hlines, if_pos hlines]
              · rw [if_neg hlines, if_neg hlines, contains_append hlines]
                show _ = (_ ++ (use.feed next more).1, (use.feed next more).2)
                rw [feed_eq hmore]
                split
                · rfl
                · cases next' with
                  | none => rw [List.append_assoc]
                  | some next' => rfl

/-- **It does not matter in which pieces the bytes arrive.** -/
theorem events_flatten (reader : LineReader) (pieces : List Bytes) :
    use.events reader pieces = use.events reader [pieces.flatten] := by
  induction pieces generalizing reader with
  | nil => rfl
  | cons bytes pieces ih =>
      rw [List.flatten_cons, events, events, feed_append]
      rcases use.feed reader bytes with ⟨events, _ | next⟩
      · rfl
      · show events ++ use.events next pieces =
          match (events ++ (use.feed next pieces.flatten).1,
            (use.feed next pieces.flatten).2) with
          | (events, some next) => events ++ use.events next []
          | (events, none) => events
        rw [ih, LineUse.events]
        rcases use.feed next pieces.flatten with ⟨events', _ | next'⟩
        · rfl
        · exact (List.append_assoc _ _ _).symm

end LineUse

/-! ## The two kinds of connection -/

/-- On a client's connection a line is a message, and one that is not closes the connection. -/
def ConnectionEvent.use : LineUse ConnectionEvent where
  ofText text :=
    if isBlankLine text then []
    else match (Wire.decode? text : Option ClientMessage) with
      | some m => [.message m]
      | none => [.closed]
  closed := .closed
  alone text h := by
    split at h
    · cases h
    · next hblank =>
      split at h
      · cases List.mem_singleton.mp h
      · exact if_neg hblank

/-- On a control connection a line is a request, and one that is not is answered all the same. -/
def ControlEvent.use : LineUse ControlEvent where
  ofText text :=
    if isBlankLine text then []
    else match (Wire.decode? text : Option ControlRequest) with
      | some r => [.request r]
      | none => [.misunderstood]
  closed := .closed
  alone text h := by
    split at h
    · cases h
    · split at h <;> cases List.mem_singleton.mp h

theorem ConnectionEvent.ofLines_eq (lines : List Bytes) : ofLines lines = use.ofLines lines := by
  induction lines with
  | nil => rfl
  | cons line lines ih =>
      rw [ofLines, LineUse.ofLines, ← ih]
      rfl

theorem ControlEvent.ofLines_eq (lines : List Bytes) : ofLines lines = use.ofLines lines := by
  induction lines with
  | nil => rfl
  | cons line lines ih =>
      rw [ofLines, LineUse.ofLines, ← ih]
      rfl

namespace LineReader

theorem feedClient_eq_feed (reader : LineReader) (bytes : Bytes) :
    reader.feedClient bytes = ConnectionEvent.use.feed reader bytes := by
  simp only [feedClient, LineUse.feed, ConnectionEvent.ofLines_eq]
  rfl

theorem endClient_eq_finish (reader : LineReader) :
    reader.endClient = ConnectionEvent.use.finish reader := by
  simp only [endClient, LineUse.finish, ConnectionEvent.ofLines_eq]
  rfl

theorem feedControl_eq_feed (reader : LineReader) (bytes : Bytes) :
    reader.feedControl bytes = ControlEvent.use.feed reader bytes := by
  simp only [feedControl, LineUse.feed, ControlEvent.ofLines_eq]
  rfl

theorem endControl_eq_finish (reader : LineReader) :
    reader.endControl = ControlEvent.use.finish reader := by
  simp only [endControl, LineUse.finish, ControlEvent.ofLines_eq]
  rfl

/-- What happens on a client's connection whose bytes arrive in pieces and then end. -/
def clientEvents (reader : LineReader) : List Bytes → List ConnectionEvent
  | [] => reader.endClient
  | bytes :: rest =>
    match reader.feedClient bytes with
    | (events, some next) => events ++ clientEvents next rest
    | (events, none) => events

theorem clientEvents_eq_events (reader : LineReader) (pieces : List Bytes) :
    reader.clientEvents pieces = ConnectionEvent.use.events reader pieces := by
  induction pieces generalizing reader with
  | nil => exact endClient_eq_finish reader
  | cons bytes pieces ih =>
      rw [clientEvents, LineUse.events, feedClient_eq_feed]
      rcases ConnectionEvent.use.feed reader bytes with ⟨new, _ | next⟩
      · rfl
      · exact congrArg (new ++ ·) (ih next)

end LineReader

end Xsmp
