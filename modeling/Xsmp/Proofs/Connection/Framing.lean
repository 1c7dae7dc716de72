import Xsmp.Proofs.Connection.Lines
import Xsmp.Proofs.Message.Wire
import Xsmp.Proofs.Text.Utf8

/-!
# What is written arrives

A line without a line break in it, not too long, is read as it was written, so messages that are
written one to a line come out as they went in, in their order, and then the input ends.
-/

namespace Xsmp

/-! ## Lines -/

namespace LineReader

/-- **A line is read as it was written.** -/
theorem feed_frame {line : Bytes} (hfeed : lineFeed ∉ line) (hreturn : carriageReturn ∉ line)
    (hlength : line.length ≤ maxLine) :
    ({} : LineReader).feed (line ++ [lineFeed]) = ([line], some {}) := by
  rw [feed_ended hfeed hlength, stripped,
    if_neg fun hlast => hreturn (List.mem_of_getLast? hlast)]

/-- Nothing is left over when every line was ended. -/
theorem feed_frames {lines : List Bytes} (hfeed : ∀ line ∈ lines, lineFeed ∉ line)
    (hreturn : ∀ line ∈ lines, carriageReturn ∉ line)
    (hlength : ∀ line ∈ lines, line.length ≤ maxLine) :
    ({} : LineReader).feed (lines.flatMap (· ++ [lineFeed])) = (lines, some {}) := by
  induction lines with
  | nil => rfl
  | cons line lines ih =>
      have hframe := feed_frame (hfeed line List.mem_cons_self) (hreturn line List.mem_cons_self)
        (hlength line List.mem_cons_self)
      have hrest := ih (fun l hmem => hfeed l (List.mem_cons_of_mem line hmem))
        (fun l hmem => hreturn l (List.mem_cons_of_mem line hmem))
        (fun l hmem => hlength l (List.mem_cons_of_mem line hmem))
      rw [List.flatMap_cons, feed_append, hframe]
      show ([line] ++ (feed {} _).1, (feed {} _).2) = _
      rw [hrest]
      rfl

end LineReader

/-! ## Messages -/

/-- The bytes that messages are written as, a line for each. -/
def Wire.written {α : Type} [Wire α] (messages : List α) : Bytes :=
  messages.flatMap fun message => utf8 (encode message) ++ [lineFeed]

/-- The lines of bytes that are read to their end, unless one is too long. -/
def LineReader.lines? (bytes : Bytes) : Option (List Bytes) :=
  match ({} : LineReader).feed bytes with
  | (lines, some next) => some (lines ++ next.last?.toList)
  | (_, none) => none

/-- The messages in bytes that are read to their end, if every line is one. -/
def Wire.read? {α : Type} [Wire α] (bytes : Bytes) : Option (List α) :=
  (LineReader.lines? bytes).bind fun lines =>
    lines.mapM fun line => (Utf8.decode? line).bind decode?

section

variable {α : Type} [Wire α] [LawfulWire α]

theorem lineFeed_not_mem (message : α) : lineFeed ∉ utf8 (Wire.encode message) := by
  intro hmem
  have hchar : '\n' ∈ (Wire.encode message).toList :=
    Utf8.mem_toList_of_mem_utf8 (by decide) hmem
  exact (not_mem_encode message).1 hchar

theorem carriageReturn_not_mem (message : α) : carriageReturn ∉ utf8 (Wire.encode message) := by
  intro hmem
  have hchar : '\r' ∈ (Wire.encode message).toList :=
    Utf8.mem_toList_of_mem_utf8 (by decide) hmem
  exact (not_mem_encode message).2 hchar

/-- Messages come out one to a line, and nothing is left over. -/
theorem feed_written {messages : List α}
    (h : ∀ message ∈ messages, (utf8 (Wire.encode message)).length ≤ maxLine) :
    ({} : LineReader).feed (Wire.written messages) =
      (messages.map fun message => utf8 (Wire.encode message), some {}) := by
  have hwritten : Wire.written messages =
      (messages.map fun message => utf8 (Wire.encode message)).flatMap (· ++ [lineFeed]) := by
    rw [List.flatMap_map]
    rfl
  rw [hwritten]
  refine LineReader.feed_frames ?_ ?_ ?_
  · exact List.forall_mem_map.mpr fun message _ => lineFeed_not_mem message
  · exact List.forall_mem_map.mpr fun message _ => carriageReturn_not_mem message
  · exact List.forall_mem_map.mpr h

/-- **Messages are read back from the bytes they are written as.** -/
theorem read?_written {messages : List α}
    (h : ∀ message ∈ messages, (utf8 (Wire.encode message)).length ≤ maxLine) :
    Wire.read? (Wire.written messages) = some messages := by
  have hlines : LineReader.lines? (Wire.written messages) =
      some (messages.map fun message => utf8 (Wire.encode message)) := by
    rw [LineReader.lines?, feed_written h]
    exact congrArg some (List.append_nil _)
  have hread : ∀ message : α,
      (Utf8.decode? (utf8 (Wire.encode message))).bind Wire.decode? = some message := by
    intro message
    rw [Utf8.decode?_utf8]
    exact decode?_encode message
  rw [Wire.read?, hlines]
  exact mapM_map_of_inverse hread messages

end

/-- No message of a client is written as a blank line. -/
theorem isBlankLine_encode (message : ClientMessage) :
    isBlankLine (Wire.encode message) = false := by
  have hfields : ∃ tag fields, Wire.toJson message = .tagged tag fields := by
    cases message <;> exact ⟨_, _, rfl⟩
  obtain ⟨tag, fields, hjson⟩ := hfields
  rw [isBlankLine, Wire.encode, hjson, Json.render, String.toList_ofList]
  rfl

namespace ConnectionEvent

theorem ofLine_encode (message : ClientMessage) :
    ofLine (utf8 (Wire.encode message)) = [.message message] := by
  simp only [ofLine, Utf8.decode?_utf8, isBlankLine_encode, decode?_encode]
  rfl

theorem ofLines_map_encode (messages : List ClientMessage) :
    ofLines (messages.map fun message => utf8 (Wire.encode message)) = messages.map .message := by
  induction messages with
  | nil => rfl
  | cons message messages ih =>
      rw [List.map_cons, ofLines, ofLine_encode, ih]
      rfl

end ConnectionEvent

/-- What a client has written happens in its order, and then its input ends. -/
theorem clientEvents_written {messages : List ClientMessage} {pieces : List Bytes}
    (h : ∀ message ∈ messages, (utf8 (Wire.encode message)).length ≤ maxLine)
    (hpieces : pieces.flatten = Wire.written messages) :
    ({} : LineReader).clientEvents pieces = messages.map .message ++ [.closed] := by
  have hopen : ¬ (messages.map ConnectionEvent.message).contains .closed = true := by
    intro hcontains
    obtain ⟨message, _, hclosed⟩ := List.mem_map.mp (List.contains_iff_mem.mp hcontains)
    exact ConnectionEvent.noConfusion hclosed
  have hfeed : ConnectionEvent.use.feed {} (Wire.written messages) =
      (messages.map .message, some {}) := by
    rw [LineUse.feed_eq (feed_written h), ← ConnectionEvent.ofLines_eq,
      ConnectionEvent.ofLines_map_encode]
    exact if_neg hopen
  rw [LineReader.clientEvents_eq_events, LineUse.events_flatten, hpieces, LineUse.events, hfeed]
  rfl

/-- Every message of a kind is read back from its text, and its text is one line. -/
def RoundTrips (α : Type) [Wire α] : Prop :=
  ∀ message : α, Wire.decode? (Wire.encode message) = some message ∧
    '\n' ∉ (Wire.encode message).toList ∧ '\r' ∉ (Wire.encode message).toList

theorem roundTrips (α : Type) [Wire α] [LawfulWire α] : RoundTrips α :=
  fun message => ⟨decode?_encode message, not_mem_encode message⟩

/-- **Every message survives its way over a connection.** It is read back from its text, which
has no line break in it; and messages that are written one to a line, none of them longer than
a line may be, are read in their order until the input ends, in whichever pieces they
arrive. -/
theorem messages_survive :
    RoundTrips ClientMessage ∧ RoundTrips ManagerMessage ∧ RoundTrips ControlRequest ∧
    RoundTrips ControlResponse ∧ RoundTrips Property ∧
    (∀ property : Property, Property.decode? (Wire.encode property) = some property) ∧
    ∀ messages : List ClientMessage,
      (∀ message ∈ messages, (utf8 (Wire.encode message)).length ≤ maxLine) →
      Wire.read? (Wire.written messages) = some messages ∧
      ∀ pieces : List Bytes, pieces.flatten = Wire.written messages →
        ({} : LineReader).clientEvents pieces = messages.map .message ++ [.closed] := by
  refine ⟨roundTrips _, roundTrips _, roundTrips _, roundTrips _, roundTrips _,
    Property.decode?_encode, fun messages h => ⟨read?_written h, fun pieces hpieces => ?_⟩⟩
  exact clientEvents_written h hpieces

/-- A line break in a name does not break the line, and a piece may end inside a character. -/
theorem messages_survive_pair :
    (∀ message ∈ [ClientMessage.deleteProperties ["a\nb", "é"], .getProperties],
      (utf8 (Wire.encode message)).length ≤ maxLine) ∧
    ({} : LineReader).clientEvents
        [(Wire.written [ClientMessage.deleteProperties ["a\nb", "é"], .getProperties]).take 46,
          (Wire.written [ClientMessage.deleteProperties ["a\nb", "é"], .getProperties]).drop 46] =
      [.message (.deleteProperties ["a\nb", "é"]), .message .getProperties, .closed] := by
  have hlength : ∀ message ∈ [ClientMessage.deleteProperties ["a\nb", "é"], .getProperties],
      (utf8 (Wire.encode message)).length ≤ maxLine := by decide
  refine ⟨hlength, ?_⟩
  have hpieces := (messages_survive.2.2.2.2.2.2 _ hlength).2
  exact hpieces _ (by rw [List.flatten_cons, List.flatten_singleton, List.take_append_drop])

end Xsmp
