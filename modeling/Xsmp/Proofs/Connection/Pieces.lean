import Xsmp.Proofs.Connection.Lines
import Xsmp.Proofs.Text.Decoded

/-!
# Reading is cutting at the line feeds

All that is sent on a connection, cut at every line feed, comes to pieces. What happens on the
connection is what the pieces come to, one after the other, up to the first one that closes it:
one that is too long or no text, and on a client's connection one that is no message.

While more may come, the piece after the last line feed has come to nothing yet, unless it is
too long already.
-/

namespace Xsmp

/-- What was sent up to a line feed, or after the last one. -/
structure Piece where
  bytes : Bytes
  /-- Whether a line feed ended it. -/
  ended : Bool
  deriving DecidableEq

namespace Piece

/-- The bytes of its line: one carriage return before the line feed does not belong to it. -/
def line (piece : Piece) : Bytes :=
  if piece.ended && piece.bytes.getLast? = some carriageReturn then piece.bytes.dropLast
  else piece.bytes

/-- The text of its line, if it is one and the piece is not too long. -/
def text? (piece : Piece) : Option String :=
  if piece.bytes.length ≤ maxLine then Utf8.decode? piece.line else none

/-! ## Cutting -/

/-- The pieces that a line feed ended. -/
def complete (bytes : Bytes) : List Piece :=
  (bytes.splitOn lineFeed).dropLast.map fun piece => { bytes := piece, ended := true }

/-- What was sent after the last line feed. -/
def rest (bytes : Bytes) : Bytes :=
  (bytes.splitOn lineFeed).getLastD []

/-- Everything that was sent. What comes after the last line feed is a piece unless it is
nothing. -/
def cut (bytes : Bytes) : List Piece :=
  complete bytes ++ if rest bytes = [] then [] else [{ bytes := rest bytes, ended := false }]

/-- What counts while more may come. A piece that is too long does not wait for its end. -/
def arrived (bytes : Bytes) : List Piece :=
  complete bytes ++
    if (rest bytes).length ≤ maxLine then [] else [{ bytes := rest bytes, ended := false }]

section Cutting

variable {line : Bytes}

theorem complete_of_not_mem (h : lineFeed ∉ line) : complete line = [] := by
  rw [complete, List.splitOn_eq_singleton h]
  rfl

theorem rest_of_not_mem (h : lineFeed ∉ line) : rest line = line := by
  rw [rest, List.splitOn_eq_singleton h]
  rfl

theorem complete_append (h : lineFeed ∉ line) (more : Bytes) :
    complete (line ++ lineFeed :: more) = { bytes := line, ended := true } :: complete more := by
  rw [complete, List.splitOn_append_cons_self_of_not_mem h,
    List.dropLast_cons_of_ne_nil (List.splitOn_ne_nil lineFeed more), List.map_cons, complete]

theorem rest_append (h : lineFeed ∉ line) (more : Bytes) :
    rest (line ++ lineFeed :: more) = rest more := by
  obtain ⟨first, others, hsplit⟩ := List.exists_cons_of_ne_nil (List.splitOn_ne_nil lineFeed more)
  rw [rest, rest, List.splitOn_append_cons_self_of_not_mem h, hsplit]
  rfl

theorem arrived_append (h : lineFeed ∉ line) (more : Bytes) :
    arrived (line ++ lineFeed :: more) = { bytes := line, ended := true } :: arrived more := by
  rw [arrived, complete_append h, rest_append h, List.cons_append, arrived]

/-- Bytes are the last piece, or they begin with one that a line feed ends. -/
theorem cutInduction {motive : Bytes → Prop} (last : ∀ line, lineFeed ∉ line → motive line)
    (append : ∀ line more, lineFeed ∉ line → motive more → motive (line ++ lineFeed :: more))
    (bytes : Bytes) : motive bytes := by
  by_cases h : lineFeed ∈ bytes
  · obtain ⟨line, more, hbytes, hline⟩ := List.eq_append_cons_of_mem h
    have hshorter : more.length < bytes.length := by
      rw [hbytes, List.length_append, List.length_cons]
      omega
    rw [hbytes]
    exact append line more hline (cutInduction last append more)
  · exact last bytes h
termination_by bytes.length

end Cutting

end Piece

/-- A reader in the middle of a line. -/
def LineReader.amid (line : Bytes) : LineReader where
  kept := line.reverse
  length := line.length

theorem LineReader.feed_amid {line : Bytes} (h : lineFeed ∉ line)
    (hlength : line.length ≤ maxLine) :
    ({} : LineReader).feed line = ([], some (.amid line)) := by
  rw [feed_line h (by rw [Nat.zero_add]; exact hlength), List.append_nil, Nat.zero_add, amid]

theorem LineReader.last?_amid (line : Bytes) :
    (amid line).last? = if line = [] then none else some line := by
  rw [last?, amid]
  simp only [List.isEmpty_reverse, List.isEmpty_iff, List.reverse_reverse]

/-! ## What pieces come to -/

namespace LineUse

variable {ε : Type} (use : LineUse ε)

/-- What a piece comes to. -/
def ofPiece (piece : Piece) : List ε :=
  match piece.text? with
  | none => [use.closed]
  | some text => use.ofText text

variable {use} {piece : Piece} {pieces : List Piece}

theorem ofPiece_eq_ofLine (h : piece.bytes.length ≤ maxLine) :
    use.ofPiece piece = use.ofLine piece.line := by
  rw [ofPiece, Piece.text?, if_pos h]
  rfl

variable [DecidableEq ε] (use)

/-- Whether a piece closes the connection. -/
def closes (piece : Piece) : Bool := (use.ofPiece piece).contains use.closed

/-- What pieces come to, up to the first one that closes the connection. -/
def heard (pieces : List Piece) : List ε :=
  (pieces.takeWhile (!use.closes ·)).flatMap use.ofPiece

variable {use}

theorem ofPiece_of_closes (h : use.closes piece = true) : use.ofPiece piece = [use.closed] := by
  have hmem := List.contains_iff_mem.mp h
  rw [ofPiece] at hmem ⊢
  split
  · rfl
  · next htext =>
    rw [htext] at hmem
    exact use.alone _ hmem

theorem closes_of_long (h : ¬ piece.bytes.length ≤ maxLine) : use.closes piece = true := by
  rw [closes, ofPiece, Piece.text?, if_neg h]
  exact List.contains_iff_mem.mpr List.mem_cons_self

theorem heard_cons_of_closes (h : use.closes piece = true) : use.heard (piece :: pieces) = [] := by
  rw [heard, List.takeWhile_cons, h]
  rfl

theorem heard_cons (h : use.closes piece = false) :
    use.heard (piece :: pieces) = use.ofPiece piece ++ use.heard pieces := by
  rw [heard, List.takeWhile_cons, h]
  rfl

/-- Bytes that end one piece: what it comes to, and whether anything is read after it. -/
theorem feed_piece {line : Bytes} (h : lineFeed ∉ line) (hlength : line.length ≤ maxLine) :
    use.feed {} (line ++ [lineFeed]) =
      (use.ofPiece ⟨line, true⟩, if use.closes ⟨line, true⟩ then none else some {}) := by
  have hline : LineReader.stripped line = Piece.line ⟨line, true⟩ := by
    simp [LineReader.stripped, Piece.line]
  have hpiece : use.ofPiece ⟨line, true⟩ = use.ofLine (Piece.line ⟨line, true⟩) :=
    ofPiece_eq_ofLine hlength
  rw [feed_eq (LineReader.feed_ended h hlength), hline, closes, hpiece, ofLines_singleton]
  split <;> rfl

/-- **Reading is cutting at the line feeds, as long as more may come.** -/
theorem feed_eq_heard (bytes : Bytes) :
    use.feed {} bytes =
      if (Piece.arrived bytes).any use.closes then
        (use.heard (Piece.arrived bytes) ++ [use.closed], none)
      else (use.heard (Piece.arrived bytes), some (.amid (Piece.rest bytes))) := by
  induction bytes using Piece.cutInduction with
  | last line h =>
      rw [Piece.arrived, Piece.complete_of_not_mem h, Piece.rest_of_not_mem h, List.nil_append]
      by_cases hlength : line.length ≤ maxLine
      · rw [feed_eq (LineReader.feed_amid h hlength), if_pos hlength]
        rfl
      · have hlong : ({} : LineReader).feed line = ([], none) := by
          rw [← List.append_nil line]
          exact LineReader.feed_long h (by simpa using hlength) (Nat.zero_le _) []
        have hcloses : use.closes ⟨line, false⟩ = true := closes_of_long hlength
        rw [feed_eq hlong, if_neg hlength, heard_cons_of_closes hcloses, List.any_cons, hcloses]
        rfl
  | append line more h ih =>
      rw [Piece.arrived_append h, Piece.rest_append h, List.any_cons]
      by_cases hlength : line.length ≤ maxLine
      · rw [List.append_cons, feed_append, feed_piece h hlength]
        cases hcloses : use.closes ⟨line, true⟩ with
        | true =>
            rw [heard_cons_of_closes hcloses, ofPiece_of_closes hcloses]
            rfl
        | false =>
            show (use.ofPiece ⟨line, true⟩ ++ (use.feed {} more).1, (use.feed {} more).2) = _
            rw [ih, heard_cons hcloses, Bool.false_or]
            split
            · rw [List.append_assoc]
            · rfl
      · have hlong : ({} : LineReader).feed (line ++ lineFeed :: more) = ([], none) :=
          LineReader.feed_long h (by simpa using hlength) (Nat.zero_le _) _
        have hcloses : use.closes ⟨line, true⟩ = true := closes_of_long hlength
        rw [feed_eq hlong, heard_cons_of_closes hcloses, hcloses]
        rfl

theorem heard_append (before after : List Piece) :
    use.heard (before ++ after) =
      if before.any use.closes then use.heard before else use.heard before ++ use.heard after := by
  induction before with
  | nil => rfl
  | cons piece before ih =>
      rw [List.cons_append, List.any_cons]
      cases hcloses : use.closes piece with
      | true =>
          rw [heard_cons_of_closes hcloses, heard_cons_of_closes hcloses]
          rfl
      | false =>
          rw [heard_cons hcloses, heard_cons hcloses, ih, Bool.false_or]
          split
          · rfl
          · rw [List.append_assoc]

/-- What is left of a reader in the middle of a line when the input ends. -/
theorem finish_amid {line : Bytes} (hlength : line.length ≤ maxLine) :
    use.finish (.amid line) =
      use.heard (if line = [] then [] else [⟨line, false⟩]) ++ [use.closed] := by
  rw [finish, LineReader.last?_amid]
  by_cases hline : line = []
  · rw [if_pos hline, if_pos hline]
    rfl
  · have hpiece : use.ofLines [line] = use.ofPiece ⟨line, false⟩ := by
      rw [ofPiece_eq_ofLine hlength, ofLines_singleton]
      rfl
    rw [if_neg hline, if_neg hline]
    rw [Option.toList_some, hpiece]
    show (if use.closes ⟨line, false⟩ then use.ofPiece ⟨line, false⟩
      else use.ofPiece ⟨line, false⟩ ++ [use.closed]) = _
    cases hcloses : use.closes ⟨line, false⟩ with
    | true =>
        rw [heard_cons_of_closes hcloses, ofPiece_of_closes hcloses]
        rfl
    | false =>
        rw [heard_cons hcloses]
        exact congrArg (· ++ _) (List.append_nil _).symm

/-- **Reading is cutting at the line feeds.** What happens on a connection whose bytes arrive in
chunks and then end is what the pieces before the first bad one come to, and then it closes. -/
theorem events_eq_heard (chunks : List Bytes) :
    use.events {} chunks = use.heard (Piece.cut chunks.flatten) ++ [use.closed] := by
  rw [events_flatten]
  generalize chunks.flatten = bytes
  rw [events, feed_eq_heard, Piece.cut, heard_append, Piece.arrived, heard_append, List.any_append]
  cases hcomplete : (Piece.complete bytes).any use.closes with
  | true => rfl
  | false =>
      by_cases hlength : (Piece.rest bytes).length ≤ maxLine
      · rw [if_pos hlength]
        show use.heard (Piece.complete bytes) ++ [] ++ use.finish (.amid (Piece.rest bytes)) = _
        rw [List.append_nil, finish_amid hlength]
        exact (List.append_assoc _ _ _).symm
      · have hrest : Piece.rest bytes ≠ [] := fun h => hlength (by simp [h])
        have hcloses : use.closes ⟨Piece.rest bytes, false⟩ = true := closes_of_long hlength
        rw [if_neg hlength, if_neg hrest, List.any_cons, hcloses]
        rfl

end LineUse

/-! ## A client's connection -/

namespace Piece

variable {piece : Piece} {text : String} {message : ClientMessage}

theorem text?_eq_some_iff :
    piece.text? = some text ↔ piece.bytes.length ≤ maxLine ∧ utf8 text = piece.line := by
  rw [text?]
  split
  · next h => rw [Utf8.decode?_eq_some_iff, and_iff_right h]
  · next h => simp [h]

/-- Whether reading goes on after a piece: it is not too long, it is text, and the text is blank
or a message. -/
def Good (piece : Piece) : Prop :=
  piece.bytes.length ≤ maxLine ∧ ∃ text, utf8 text = piece.line ∧
    (isBlankLine text = true ∨ ∃ message : ClientMessage, Wire.decode? text = some message)

/-- The message of a piece. -/
def message? (piece : Piece) : Option ClientMessage :=
  piece.text?.bind fun text => if isBlankLine text then none else Wire.decode? text

theorem message?_eq_some_iff :
    piece.message? = some message ↔ piece.bytes.length ≤ maxLine ∧ ∃ text,
      utf8 text = piece.line ∧ isBlankLine text = false ∧ Wire.decode? text = some message := by
  simp [message?, Option.bind_eq_some_iff, text?_eq_some_iff, and_assoc]

/-- On a client's connection a text comes to nothing if it is blank, to its message if it has
one, and otherwise closes the connection. -/
theorem ofPiece_client (h : piece.text? = some text) :
    ConnectionEvent.use.ofPiece piece = if isBlankLine text then [] else
      match (Wire.decode? text : Option ClientMessage) with
      | some message => [.message message]
      | none => [.closed] := by
  rw [LineUse.ofPiece, h]
  rfl

theorem good_iff : ConnectionEvent.use.closes piece = false ↔ piece.Good := by
  have hgood : piece.Good ↔ ∃ text, piece.text? = some text ∧
      (isBlankLine text = true ∨ ∃ message : ClientMessage, Wire.decode? text = some message) := by
    simp only [Good, text?_eq_some_iff, and_assoc, exists_and_left]
  have hclosed : ConnectionEvent.use.closed = .closed := rfl
  rw [hgood, LineUse.closes, hclosed]
  cases htext : piece.text? with
  | none => simp [LineUse.ofPiece, htext, hclosed]
  | some text =>
      rw [ofPiece_client htext]
      by_cases hblank : isBlankLine text = true
      · simp [hblank]
      · cases hdecode : (Wire.decode? text : Option ClientMessage) <;> simp [hblank, hdecode]

instance : Decidable piece.Good := decidable_of_iff _ good_iff

/-- A good piece comes to its message, if it has one. -/
theorem ofPiece_of_good (h : piece.Good) :
    ConnectionEvent.use.ofPiece piece = piece.message?.toList.map .message := by
  obtain ⟨hlength, text, hline, hgood⟩ := h
  have htext := text?_eq_some_iff.mpr ⟨hlength, hline⟩
  rw [ofPiece_client htext, message?, htext, Option.bind_some]
  by_cases hblank : isBlankLine text = true
  · rw [if_pos hblank, if_pos hblank]
    rfl
  · obtain ⟨message, hmessage⟩ := hgood.resolve_left hblank
    rw [if_neg hblank, if_neg hblank, hmessage]
    rfl

end Piece

/-- What is heard of a client are the messages of the pieces before the first bad one. -/
theorem heard_eq_messages (pieces : List Piece) :
    ConnectionEvent.use.heard pieces =
      ((pieces.takeWhile (Piece.Good ·)).filterMap Piece.message?).map .message := by
  induction pieces with
  | nil => rfl
  | cons piece pieces ih =>
      by_cases hgood : piece.Good
      · have hclient := Piece.ofPiece_of_good hgood
        rw [LineUse.heard_cons (Piece.good_iff.mpr hgood), ih, hclient, List.takeWhile_cons,
          if_pos (decide_eq_true hgood), List.filterMap_cons]
        cases piece.message? <;> rfl
      · have hcloses := Bool.of_not_eq_false (mt Piece.good_iff.mp hgood)
        rw [LineUse.heard_cons_of_closes hcloses, List.takeWhile_cons,
          if_neg (by rw [decide_eq_true_iff]; exact hgood)]
        rfl

/-- **Reading a connection is cutting what was sent.** In whichever chunks the bytes arrive, what
happens are the messages of the pieces before the first bad one, in their order, and then the
connection is closed. A piece has a message if it is not too long and is a text that is not
blank, and it is the one that the text decodes to. -/
theorem clientEvents_of_cut :
    (∀ chunks : List Bytes, ({} : LineReader).clientEvents chunks =
      (((Piece.cut chunks.flatten).takeWhile (Piece.Good ·)).filterMap Piece.message?).map .message
        ++ [.closed]) ∧
    ∀ (piece : Piece) (message : ClientMessage),
      piece.message? = some message ↔ piece.bytes.length ≤ maxLine ∧ ∃ text,
        utf8 text = piece.line ∧ isBlankLine text = false ∧ Wire.decode? text = some message := by
  refine ⟨fun chunks => ?_, fun piece message => Piece.message?_eq_some_iff⟩
  rw [LineReader.clientEvents_eq_events, LineUse.events_eq_heard, heard_eq_messages]
  rfl

end Xsmp
