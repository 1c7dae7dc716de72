import Xsmp.Proofs.Manager.Fate
import Xsmp.Proofs.Manager.Lives

/-!
# The course of an event

Every event takes the same course. What clients say is heeded first, and a client that has waited
to register may be let in (`Heeds`); then the session is followed; and in the end a client that has
gone is forgotten (`Course`). What becomes of participants, whom the manager restarts and whether
it notices the end of the session is told from that, without another look at the events.
-/

namespace Xsmp

open Participant (saidIn)

/-- What a client says by an event. -/
def ManagerEvent.saidBy (event : ManagerEvent) (key : ClientKey) : List ClientMessage :=
  match event with
  | .message client said => if client = key then [said] else []
  | _ => []

namespace Manager

open Session (Operation perform)

variable {w : Surroundings} {manager prepared : Manager} {event : ManagerEvent}
  {turn : ManagerTurn} {after : Turn} {key : ClientKey}

/-- What the session finds around it while an event is dealt with. A client's own message is
heeded first, and may change whether that client wants to be restarted. -/
def around (w : Surroundings) (event : ManagerEvent) (manager : Manager) : Surroundings :=
  match event with
  | .message key message =>
    match manager.participants.get? key with
    | some participant =>
      (reacted key (participant.received message) manager).manager.surroundings w
    | none => manager.surroundings w
  | _ => manager.surroundings w

theorem completed_close (key : ClientKey) (manager : Manager) :
    (close key manager).manager.completed = manager.completed := by
  unfold close
  split <;> rfl

theorem completed_expire (keys : List ClientKey) (manager : Manager) :
    (expire keys manager).manager.completed = manager.completed := by
  induction keys generalizing manager with
  | nil => rfl
  | cons key keys ih =>
      rw [expire, ManagerTurn.andThen_manager, ih, completed_close]

/-! ## The course of an event -/

/-- What clients say is heeded, or a client that has waited to register is let in. -/
structure Heeds (manager : Manager) (said : ClientKey → List ClientMessage) (prepared : Manager) :
    Prop where
  heard : ∀ key participant, manager.participants.get? key = some participant →
    ∃ inputs, saidIn inputs = said key
      ∧ prepared.participants.get? key = some (participant.after inputs)
  joined : ∀ key participant, manager.participants.get? key = none →
    prepared.participants.get? key = some participant →
    ∃ handshake, manager.handshakes.get? key = some handshake
      ∧ participant = handshake.participant
  completed : prepared.completed = manager.completed

/-- The course of an event, of which the session does its part. -/
structure Course (after : Turn) (prepared : Manager) (turn : ManagerTurn) : Prop where
  /-- The session is followed, and then those that have gone are forgotten. -/
  participants : ∀ key, turn.manager.participants.get? key =
      (prepared.follow after).manager.participants.get? key
    ∨ (key ∉ after.session.clients.keys ∧ turn.manager.participants.get? key = none)
  session : turn.manager.session = after.session
  completed : turn.manager.completed = (prepared.follow after).manager.completed
  restarts : ∀ key, Manager.restarts key turn.actions =
    Manager.restarts key (prepared.follow after).actions

theorem heeds_self {said : ClientKey → List ClientMessage}
    (h : ∀ key participant, manager.participants.get? key = some participant → said key = []) :
    Heeds manager said manager := by
  refine ⟨fun key participant hget => ⟨[], (h key participant hget).symm, hget⟩, ?_, rfl⟩
  intro key participant hnone hsome
  exact absurd (hnone.symm.trans hsome) (by simp)

theorem heeds_silent (manager : Manager) : Heeds manager (fun _ => []) manager :=
  heeds_self fun _ _ _ => rfl

theorem heeds_stranger (h : manager.participants.get? key = none) (message : ClientMessage) :
    Heeds manager (ManagerEvent.message key message).saidBy manager := by
  refine heeds_self fun other participant hget => if_neg ?_
  rintro rfl
  exact absurd (h.symm.trans hget) (by simp)

theorem heeds_message {participant : Participant}
    (hget : manager.participants.get? key = some participant) (message : ClientMessage) :
    Heeds manager (ManagerEvent.message key message).saidBy
      (reacted key (participant.received message) manager).manager := by
  refine ⟨fun other known hknown => ?_, fun other known hnone hsome => ?_, rfl⟩
  · by_cases hkey : other = key
    · subst hkey
      obtain rfl := Option.some.inj (hget.symm.trans hknown)
      refine ⟨[.received message], (if_pos rfl).symm, ?_⟩
      exact KeyMap.get?_insert_self
    · refine ⟨[], (if_neg (Ne.symm hkey)).symm, ?_⟩
      exact (KeyMap.get?_insert_of_ne hkey).trans hknown
  · have hkey : other ≠ key := by
      rintro rfl
      exact absurd (hnone.symm.trans hget) (by simp)
    have hsame := (KeyMap.get?_insert_of_ne hkey).symm.trans hsome
    exact absurd (hnone.symm.trans hsame) (by simp)

/-- A client that has waited is let in, and becomes a participant. -/
theorem heeds_joining {handshake : Handshake} (hget : manager.handshakes.get? key = some handshake)
    (hnone : manager.participants.get? key = none) (message : ClientMessage) :
    Heeds manager (ManagerEvent.message key message).saidBy { manager with
      handshakes := manager.handshakes.erase key
      participants := manager.participants.insert key handshake.participant } := by
  refine ⟨fun other known hknown => ?_, fun other known hother hsome => ?_, rfl⟩
  · have hkey : other ≠ key := by
      rintro rfl
      exact absurd (hnone.symm.trans hknown) (by simp)
    refine ⟨[], (if_neg (Ne.symm hkey)).symm, ?_⟩
    exact (KeyMap.get?_insert_of_ne hkey).trans hknown
  · by_cases hkey : other = key
    · subst hkey
      have hknown := KeyMap.get?_insert_self.symm.trans hsome
      exact ⟨handshake, hget, (Option.some.inj hknown).symm⟩
    · have hsame := (KeyMap.get?_insert_of_ne hkey).symm.trans hsome
      exact absurd (hother.symm.trans hsame) (by simp)

theorem Heeds.named {said : ClientKey → List ClientMessage} (h : Heeds manager said prepared)
    (hnamed : Named manager)
    (hwaits : ∀ key handshake, manager.handshakes.get? key = some handshake →
      handshake.participant.key = key) : Named prepared := by
  intro key participant hget
  cases hold : manager.participants.get? key with
  | none =>
      obtain ⟨handshake, hhandshake, rfl⟩ := h.joined key participant hold hget
      exact hwaits key handshake hhandshake
  | some old =>
      obtain ⟨inputs, _, hafter⟩ := h.heard key old hold
      obtain rfl := Option.some.inj (hget.symm.trans hafter)
      rw [Participant.key_after]
      exact hnamed key old hold

/-- An event about which the session does nothing. -/
theorem course_idle (hparticipants : turn.manager.participants = manager.participants)
    (hsession : turn.manager.session = manager.session)
    (hcompleted : turn.manager.completed = manager.completed)
    (hrestarts : ∀ key, restarts key turn.actions = 0) :
    Course { session := manager.session } manager turn :=
  ⟨fun key => .inl (congrArg (·.get? key) hparticipants), hsession, hcompleted, hrestarts⟩

/-- A connection is closed, and the session knows nothing of it. -/
theorem course_close (key : ClientKey) (handshakes : KeyMap Handshake) (manager : Manager) :
    Course { session := manager.session } manager (close key { manager with handshakes }) :=
  course_idle (close_frame key _).2.1 (close_frame key _).1 (completed_close key _)
    fun client => restarts_close client key _

theorem course_follow (prepared : Manager) (after : Turn) :
    Course after prepared (prepared.follow after) :=
  ⟨fun _ => .inl rfl, follow_session after, rfl, fun _ => rfl⟩

/-- The answer to a control request comes last. -/
theorem Course.answered (h : Course after prepared turn) (response : ControlResponse) :
    Course after prepared
      (turn.andThen fun manager => { manager, actions := [.answered response] }) := by
  refine ⟨h.participants, h.session, h.completed, fun key => ?_⟩
  rw [ManagerTurn.andThen_actions, restarts_append]
  exact h.restarts key

/-- The answer to a client's own message comes first. -/
theorem Course.reacted {participant : Participant} {message : ClientMessage}
    {next : Manager → ManagerTurn}
    (h : Course after prepared
      (next (Manager.reacted key (participant.received message) manager).manager)) :
    Course after prepared
      ((Manager.reacted key (participant.received message) manager).andThen next) := by
  refine ⟨h.participants, h.session, h.completed, fun client => ?_⟩
  rw [ManagerTurn.andThen_actions, restarts_append, Manager.reacted, restarts_sent, Nat.zero_add]
  exact h.restarts client

/-- A client that says goodbye is none of the session's afterwards. -/
theorem not_mem_clients_disconnect (w : Surroundings) (session : Session) (key : ClientKey) :
    key ∉ (perform w (.report key .disconnected) session).session.clients.keys := by
  cases Session.registerStep w session (.report key .disconnected) with
  | keeps _ struck h =>
      rw [h.clients]
      exact fun hmem => struck key hmem rfl
  | resumes _ _ _ heq => exact absurd heq (by simp)
  | mints _ _ _ heq => exact absurd heq (by simp)
  | strikes _ _ heq h =>
      obtain ⟨rfl, _⟩ := Operation.report.inj heq
      rw [h.clients, KeyMap.mem_keys_erase]
      exact fun hmem => hmem.2 rfl

theorem course_leave (w : Surroundings) (key : ClientKey) (prepared : Manager) :
    Course (perform (prepared.surroundings w) (.report key .disconnected) prepared.session) prepared
      (leave w key prepared) := by
  let after := perform (prepared.surroundings w) (.report key .disconnected) prepared.session
  let reported := prepared.follow after
  let left : Manager :=
    { reported.manager with participants := reported.manager.participants.erase key }
  -- the session hears of it while the participant is still there, to be restarted
  have hleave : leave w key prepared = ManagerTurn.andThen
      { manager := left, actions := reported.actions ++ [] } (close key) := by
    rw [leave, report_eq]
    rfl
  rw [hleave]
  refine ⟨fun client => ?_, ?_, ?_, fun client => ?_⟩
  · rw [ManagerTurn.andThen_manager, (close_frame key left).2.1]
    by_cases hkey : client = key
    · subst hkey
      exact .inr ⟨not_mem_clients_disconnect _ _ _, KeyMap.get?_erase_self⟩
    · exact .inl (KeyMap.get?_erase_of_ne hkey)
  · rw [ManagerTurn.andThen_manager, (close_frame key left).1]
    exact follow_session after
  · rw [ManagerTurn.andThen_manager, completed_close]
  · rw [ManagerTurn.andThen_actions, restarts_append, restarts_append, restarts_close]
    rfl

/-- The manager's part in an event of which the session does its part. -/
def Attends (w : Surroundings) (manager : Manager) (event : ManagerEvent) (turn : ManagerTurn) :
    Prop :=
  ∃ prepared, Heeds manager event.saidBy prepared
    ∧ Course (sessionTurn (around w event manager) manager event) prepared turn

/-- The session does nothing about a client that is refused. -/
theorem sessionTurn_of_refuses {message : ClientMessage} {reason : String}
    (hwaits : manager.handshakes.contains key = true)
    (h : Refuses manager.session message reason) :
    sessionTurn w manager (.message key message) = { session := manager.session } := by
  cases message with
  | registerClient previousId =>
      obtain ⟨error, hregister, _⟩ := register_refused (w := w) key h
      have hasked : manager.asked? (.message key (.registerClient previousId)) =
          some (.register key previousId) := by simp [asked?, hwaits]
      rw [sessionTurn_of_some hasked]
      simp [perform, hregister, Except.map]
  | _ => exact sessionTurn_of_none (by simp [asked?, hwaits])

theorem attends_greet {handshake : Handshake} (hbooks : Books manager)
    (hget : manager.handshakes.get? key = some handshake) (w : Surroundings)
    (message : ClientMessage) :
    Attends w manager (.message key message)
      (greet w key handshake.participant message
        { manager with handshakes := manager.handshakes.erase key }) := by
  have hwaits := hbooks.waits hget
  have hnone : manager.participants.get? key = none := by simpa [saves?] using hwaits.saves
  have haround : around w (.message key message) manager = manager.surroundings w := by
    simp only [around, hnone]
  rcases greet_cases w key handshake.participant message
      { manager with handshakes := manager.handshakes.erase key } with
    ⟨reason, hrefuses, hgreet⟩ | ⟨previousId, id, registered, rfl, _, hregister, hgreet⟩
  · refine ⟨manager, heeds_stranger hnone message, ?_⟩
    rw [sessionTurn_of_refuses hwaits.contains hrefuses, hgreet]
    refine course_idle (close_frame key _).2.1 (close_frame key _).1 (completed_close key _)
      fun client => ?_
    rw [refuse, ManagerTurn.andThen_actions, restarts_append, restarts_close]
    rfl
  · have hasked : manager.asked? (.message key (.registerClient previousId)) =
        some (.register key previousId) := by simp [asked?, hwaits.contains]
    -- it is a participant before the session calls it
    refine ⟨_, heeds_joining hget hnone _, ?_⟩
    rw [haround, sessionTurn_of_some hasked, hgreet]
    have hperform : perform (manager.surroundings w) (.register key previousId) manager.session =
        registered := perform_registered hregister
    rw [hperform]
    exact course_follow _ registered

/-- A message of a registered client. -/
theorem attends_message {participant : Participant} (hwaits : manager.handshakes.get? key = none)
    (hget : manager.participants.get? key = some participant) (w : Surroundings)
    (message : ClientMessage) :
    Attends w manager (.message key message) (receive w key message manager) := by
  let heeded := (reacted key (participant.received message) manager).manager
  have haround : around w (.message key message) manager = heeded.surroundings w := by
    simp only [around, hget]
    rfl
  have hasked : manager.asked? (.message key message) =
      (participant.received message).reported.map (.report key) := by
    simp [asked?, KeyMap.contains, hwaits, hget]
  refine ⟨heeded, heeds_message hget message, ?_⟩
  rw [haround]
  cases hreported : (participant.received message).reported with
  | none =>
      have hreceive : receive w key message manager =
          (reacted key (participant.received message) manager).andThen ({ manager := · }) := by
        simp only [receive, hwaits, hget, hreported, reacted]
      rw [hreported] at hasked
      rw [hreceive, sessionTurn_of_none hasked]
      have hidle : Course { session := heeded.session } heeded { manager := heeded } :=
        course_idle rfl rfl rfl fun _ => rfl
      exact Course.reacted hidle
  | some event =>
      rw [hreported] at hasked
      rw [sessionTurn_of_some hasked]
      by_cases hgone : event = .disconnected
      · subst hgone
        have hreceive : receive w key message manager =
            (reacted key (participant.received message) manager).andThen (leave w key) := by
          simp only [receive, hwaits, hget, hreported, reacted]
        rw [hreceive]
        exact Course.reacted (course_leave w key heeded)
      · have hreceive : receive w key message manager =
            (reacted key (participant.received message) manager).andThen (report w key event) := by
          simp only [receive, hwaits, hget, hreported, reacted]
        rw [hreceive]
        refine Course.reacted ?_
        rw [report_eq]
        exact course_follow heeded _

theorem attends_control (w : Surroundings) (request : ControlRequest) (manager : Manager) :
    Attends w manager (.control request) (control request manager) := by
  refine ⟨manager, heeds_silent manager, ?_⟩
  cases request with
  | ping => exact course_idle rfl rfl rfl fun _ => rfl
  | status => exact course_idle rfl rfl rfl fun _ => rfl
  | logout => exact (course_follow manager _).answered .ok
  | cancelLogout =>
      cases hcancel : manager.session.cancelShutdown with
      | ok after =>
          have hturn : sessionTurn (around w (.control .cancelLogout) manager) manager
              (.control .cancelLogout) = after := by
            simp [sessionTurn, asked?, perform, hcancel]
          simp only [hturn, control, hcancel]
          exact (course_follow manager after).answered .ok
      | error error =>
          have hturn : sessionTurn (around w (.control .cancelLogout) manager) manager
              (.control .cancelLogout) = { session := manager.session } := by
            simp [sessionTurn, asked?, perform, hcancel]
          simp only [hturn, control, hcancel]
          exact course_idle rfl rfl rfl fun _ => rfl
  | checkpoint =>
      cases hcheckpoint : manager.session.checkpoint with
      | ok after =>
          have hturn : sessionTurn (around w (.control .checkpoint) manager) manager
              (.control .checkpoint) = after := by
            simp [sessionTurn, asked?, perform, hcheckpoint]
          simp only [hturn, control, hcheckpoint]
          exact (course_follow manager after).answered .ok
      | error error =>
          have hturn : sessionTurn (around w (.control .checkpoint) manager) manager
              (.control .checkpoint) = { session := manager.session } := by
            simp [sessionTurn, asked?, perform, hcheckpoint]
          simp only [hturn, control, hcheckpoint]
          exact course_idle rfl rfl rfl fun _ => rfl

/-- **The course of every event.** -/
theorem attends_handle (hbooks : Books manager) (w : Surroundings) (event : ManagerEvent) :
    Attends w manager event (handle w event manager) := by
  cases event with
  | accepted => exact ⟨manager, heeds_silent manager, course_idle rfl rfl rfl fun _ => rfl⟩
  | message key message =>
      cases hwaits : manager.handshakes.get? key with
      | some handshake =>
          have hreceive : handle w (.message key message) manager =
              greet w key handshake.participant message
                { manager with handshakes := manager.handshakes.erase key } := by
            simp only [handle, receive, hwaits]
          rw [hreceive]
          exact attends_greet hbooks hwaits w message
      | none =>
          cases hget : manager.participants.get? key with
          | none =>
              have hreceive : handle w (.message key message) manager = { manager } := by
                simp only [handle, receive, hwaits, hget]
              have hasked : manager.asked? (.message key message) = none := by
                simp [asked?, KeyMap.contains, hwaits, hget]
              refine ⟨manager, heeds_stranger hget message, ?_⟩
              rw [hreceive, sessionTurn_of_none hasked]
              exact course_idle rfl rfl rfl fun _ => rfl
          | some participant => exact attends_message hwaits hget w message
  | closed key =>
      refine ⟨manager, heeds_silent manager, ?_⟩
      by_cases hwaits : manager.handshakes.contains key = true
      · have hlose : handle w (.closed key) manager =
            close key { manager with handshakes := manager.handshakes.erase key } := by
          simp only [handle, lose, hwaits, if_true]
        rw [hlose, sessionTurn_of_none (by simp [asked?, hwaits])]
        exact course_close key _ manager
      · have hlose : handle w (.closed key) manager = leave w key manager := by
          simp only [handle, lose, hwaits]
          rfl
        have hasked : manager.asked? (.closed key) = some (.report key .disconnected) := by
          simp [asked?, hwaits]
        rw [hlose, sessionTurn_of_some hasked]
        exact course_leave w key manager
  | control request => exact attends_control w request manager
  | programExited pid => exact ⟨manager, heeds_silent manager, course_follow manager _⟩
  | phaseTimeout => exact ⟨manager, heeds_silent manager, course_follow manager _⟩
  | handshakeTimeout =>
      let overdue := manager.overdue w.now
      exact ⟨manager, heeds_silent manager,
        course_idle (expire_frame overdue manager).2.1 (expire_frame overdue manager).1
          (completed_expire overdue manager) fun key => restarts_expire key overdue manager⟩
  | signal =>
      refine ⟨manager, heeds_silent manager, ?_⟩
      have hturn : sessionTurn (around w .signal manager) manager .signal =
          if manager.session.phase = .shutdown then manager.session.forceShutdown
          else manager.session.beginShutdown := by
        simp only [sessionTurn, asked?]
        split <;> rfl
      rw [hturn]
      exact course_follow manager _

/-! ## What comes of participants -/

section Course

variable {said : ClientKey → List ClientMessage} {participant : Participant}

theorem Course.named (h : Course after prepared turn) (hnamed : Named prepared) :
    Named turn.manager := by
  intro key participant hget
  rcases h.participants key with hsame | ⟨_, hnone⟩
  · exact hnamed.follow after key participant (hsame.symm.trans hget)
  · exact absurd (hnone.symm.trans hget) (by simp)

/-- The participant of a client that stays goes on living. -/
theorem Course.lives (h : Course after prepared turn) (hheeds : Heeds manager said prepared)
    (hget : manager.participants.get? key = some participant)
    (hstays : key ∈ after.session.clients.keys) :
    ∃ inputs, saidIn inputs = said key
      ∧ turn.manager.participants.get? key = some (participant.after inputs) := by
  obtain ⟨inputs, hsaid, hprepared⟩ := hheeds.heard key participant hget
  refine ⟨inputs ++ callsTo key after.effects, ?_, ?_⟩
  · rw [Participant.saidIn_append, saidIn_callsTo, List.append_nil, hsaid]
  · rcases h.participants key with hsame | ⟨hgone, _⟩
    · rw [hsame, participants_follow, hprepared, Option.map_some, Participant.after_append]
    · exact absurd hstays hgone

/-- Whoever becomes a participant has waited to register. -/
theorem Course.joins (h : Course after prepared turn) (hheeds : Heeds manager said prepared)
    (hnone : manager.participants.get? key = none)
    (hget : turn.manager.participants.get? key = some participant) :
    ∃ handshake inputs, manager.handshakes.get? key = some handshake ∧ saidIn inputs = []
      ∧ participant = handshake.participant.after inputs := by
  rcases h.participants key with hsame | ⟨_, hgone⟩
  · rw [hsame, participants_follow] at hget
    obtain ⟨old, hold, rfl⟩ := Option.map_eq_some_iff.mp hget
    obtain ⟨handshake, hhandshake, rfl⟩ := hheeds.joined key old hnone hold
    exact ⟨handshake, _, hhandshake, saidIn_callsTo key after.effects, rfl⟩
  · exact absurd (hgone.symm.trans hget) (by simp)

/-- The manager restarts whom the session has restarted. -/
theorem Course.count (h : Course after prepared turn) (hheeds : Heeds manager said prepared)
    (hnamed : Named prepared)
    (hknown : .called key .restart ∈ after.effects →
      (manager.participants.get? key).isSome = true) :
    Manager.restarts key turn.actions = after.effects.count (.called key .restart) := by
  rw [h.restarts]
  refine restarts_follow hnamed fun hmem => ?_
  obtain ⟨participant, hget⟩ := Option.isSome_iff_exists.mp (hknown hmem)
  obtain ⟨_, _, hprepared⟩ := hheeds.heard key participant hget
  rw [hprepared]
  rfl

end Course

end Manager

end Xsmp
