import Xsmp.Proofs.Control.Exchange

/-!
# An attendant and its lines

The manager answers every request exactly once. What an attendant has before it at any time
depends on what was sent on its connection and not on the pieces it arrived in: the lines that
are to be answered, and the end.
-/

namespace Xsmp

/-! ## A request has one answer -/

namespace Manager

theorem answers_andThen (turn : ManagerTurn) (next : Manager → ManagerTurn) :
    (turn.andThen next).answers = turn.answers ++ (next turn.manager).answers :=
  List.filterMap_append

theorem answers_relay (effect : Effect) (manager : Manager) :
    (relay effect manager).answers = [] := by
  cases effect with
  | called key call =>
      by_cases hrestart : call = .restart
      · rw [hrestart, relay]
        cases manager.participants.get? key <;> rfl
      · cases hget : manager.participants.get? key with
        | none =>
            rw [relay_called_none hget]
            rfl
        | some participant =>
            rw [relay_called_some hrestart hget, ManagerTurn.answers, List.filterMap_map]
            exact List.filterMap_eq_nil_iff.mpr fun _ _ => rfl
  | _ => rfl

theorem answers_relayAll (effects : List Effect) (manager : Manager) :
    (relayAll effects manager).answers = [] := by
  induction effects generalizing manager with
  | nil => rfl
  | cons effect effects ih => rw [relayAll, answers_andThen, answers_relay, ih, List.append_nil]

theorem answers_follow (manager : Manager) (turn : Turn) : (manager.follow turn).answers = [] :=
  answers_relayAll turn.effects _

/-- **A control request is answered exactly once.** -/
theorem exists_answer (request : ControlRequest) (manager : Manager) :
    ∃ response, (control request manager).answers = [response] := by
  have hfollow : ∀ (turn : Turn) (response : ControlResponse),
      ((manager.follow turn).andThen fun manager =>
        { manager, actions := [.answered response] }).answers = [response] := by
    intro turn response
    rw [answers_andThen, answers_follow]
    rfl
  cases request with
  | ping | status => exact ⟨_, rfl⟩
  | logout => exact ⟨_, hfollow _ _⟩
  | cancelLogout =>
      rw [control]
      cases manager.session.cancelShutdown with
      | ok turn => exact ⟨_, hfollow turn _⟩
      | error error => exact ⟨_, rfl⟩
  | checkpoint =>
      rw [control]
      cases manager.session.checkpoint with
      | ok turn => exact ⟨_, hfollow turn _⟩
      | error error => exact ⟨_, rfl⟩

end Manager

/-! ## The lines of a connection -/

namespace ControlEvent

/-- What a line comes to. -/
def ofRequest? : Option ControlRequest → ControlEvent
  | some r => .request r
  | none => .misunderstood

variable {piece : Piece}

theorem ofPiece_control {text : String} (h : piece.text? = some text) :
    use.ofPiece piece = if isBlankLine text then [] else [ofRequest? (Wire.decode? text)] := by
  rw [LineUse.ofPiece, h, use]
  dsimp only
  split
  · rfl
  · cases (Wire.decode? text : Option ControlRequest) <;> rfl

theorem closes_eq_bad (piece : Piece) : use.closes piece = piece.bad := by
  rw [LineUse.closes, Piece.bad]
  cases htext : piece.text? with
  | none => simp [LineUse.ofPiece, htext]
  | some text =>
      rw [ofPiece_control htext]
      split
      · rfl
      · cases (Wire.decode? text : Option ControlRequest) <;> rfl

theorem heard_eq_requests (pieces : List Piece) :
    use.heard pieces = (Piece.requests pieces).map ofRequest? := by
  induction pieces with
  | nil => rfl
  | cons piece pieces ih =>
      cases htext : piece.text? with
      | none =>
          have hcloses : use.closes piece = true := by rw [closes_eq_bad, Piece.bad, htext]; rfl
          rw [LineUse.heard_cons_of_closes hcloses, Piece.requests, List.map_cons, htext]
          rfl
      | some text =>
          have hcloses : use.closes piece = false := by rw [closes_eq_bad, Piece.bad, htext]; rfl
          have hrequests : Piece.requests (piece :: pieces) =
              (if isBlankLine text then [] else [Wire.decode? text]) ++ Piece.requests pieces := by
            rw [Piece.requests, List.map_cons, htext, List.takeWhile_cons,
              if_pos Option.isSome_some, List.filterMap_cons, id, List.filter_cons]
            cases hblank : isBlankLine text <;> rfl
          rw [LineUse.heard_cons hcloses, ih, ofPiece_control htext, hrequests, List.map_append]
          split <;> rfl

end ControlEvent

/-! ## What an attendant has before it -/

namespace Attendant

open ControlEvent (ofRequest?)

variable {attendant next : Attendant}

/-- Everything that was read on a connection. -/
def events (attendant : Attendant) : List ControlEvent :=
  if attendant.finished then ControlEvent.use.events {} [attendant.received]
  else (ControlEvent.use.feed {} attendant.received).1

/-- What was read are the lines, and then the end if there is one. -/
theorem events_eq (attendant : Attendant) :
    attendant.events = attendant.lines.map ofRequest? ++
      if attendant.over then [.closed] else [] := by
  rw [events, lines, pieces, Attendant.over, pieces]
  cases attendant.finished with
  | true =>
      rw [if_pos rfl, if_pos rfl, LineUse.events_eq_heard, ControlEvent.heard_eq_requests,
        List.flatten_singleton]
      rfl
  | false =>
      have hbad : ControlEvent.use.closes = Piece.bad := funext ControlEvent.closes_eq_bad
      rw [if_neg Bool.false_ne_true, if_neg Bool.false_ne_true, LineUse.feed_eq_heard, hbad,
        ControlEvent.heard_eq_requests, Bool.false_or]
      split
      · rfl
      · exact (List.append_nil _).symm

/-- The reader stands where the bytes have brought it, and a closed connection has come to its
end. -/
structure Sound (attendant : Attendant) : Prop where
  reader : attendant.reader =
    if attendant.finished then none else (ControlEvent.use.feed {} attendant.received).2
  closed : attendant.closed = true → attendant.ahead.head? = some .closed

/-- More was read, and nothing else has happened. -/
structure Heard (attendant next : Attendant) (new : List ControlEvent) : Prop where
  events : next.events = attendant.events ++ new
  ahead : next.ahead = attendant.ahead ++ new
  awaits : next.awaits = attendant.awaits
  written : next.written = attendant.written
  closed : next.closed = attendant.closed
  reader : next.reader =
    if next.finished then none else (ControlEvent.use.feed {} next.received).2

theorem Heard.sound {new : List ControlEvent} (h : Heard attendant next new)
    (hsound : attendant.Sound) : next.Sound := by
  refine ⟨h.reader, fun hclosed => ?_⟩
  rw [h.ahead, List.head?_append, hsound.closed (h.closed ▸ hclosed), Option.some_or]

theorem heard_hear (h : attendant.Sound) (hmore : attendant.finished = false) (bytes : Bytes) :
    ∃ new, Heard attendant (attendant.hear bytes) new := by
  have hreader := h.reader
  have hfeed : ControlEvent.use.feed {} (attendant.received ++ bytes) = _ :=
    LineUse.feed_append {} attendant.received bytes
  rw [hmore, if_neg Bool.false_ne_true] at hreader
  cases hread : ControlEvent.use.feed {} attendant.received with
  | mk before reader =>
      rw [hread] at hreader hfeed
      cases reader with
      | none =>
          refine ⟨[], ?_⟩
          rw [hear, hreader]
          refine ⟨?_, (List.append_nil _).symm, rfl, rfl, rfl, ?_⟩
          · simp only [events, hmore, hread, hfeed, if_neg Bool.false_ne_true, List.append_nil]
          · simp only [hmore, hfeed, if_neg Bool.false_ne_true]
      | some reader =>
          refine ⟨(reader.feedControl bytes).1, ?_⟩
          rw [hear, hreader]
          refine ⟨?_, rfl, rfl, rfl, rfl, ?_⟩
          · simp only [events, hmore, hread, hfeed, if_neg Bool.false_ne_true,
              LineReader.feedControl_eq_feed]
          · simp only [hmore, hfeed, if_neg Bool.false_ne_true, LineReader.feedControl_eq_feed]

theorem heard_hearEnd (h : attendant.Sound) (hmore : attendant.finished = false) :
    ∃ new, Heard attendant attendant.hearEnd new := by
  have hreader := h.reader
  rw [hmore, if_neg Bool.false_ne_true] at hreader
  refine ⟨_, ?_, rfl, rfl, rfl, rfl, rfl⟩
  rw [events, events, hmore, hearEnd, hreader]
  simp only [if_true, LineUse.events, if_neg Bool.false_ne_true]
  rcases ControlEvent.use.feed {} attendant.received with ⟨before, _ | reader⟩
  · exact (List.append_nil _).symm
  · exact congrArg (before ++ ·) (LineReader.endControl_eq_finish reader).symm

end Attendant

end Xsmp
