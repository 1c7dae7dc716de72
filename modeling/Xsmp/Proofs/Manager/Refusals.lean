import Xsmp.Proofs.Manager.Relay
import Xsmp.Proofs.Session.Register

/-!
# Operations that are refused

A session refuses what makes no sense at the moment: a registration during a logout or under
an identifier that is taken, what comes from or is meant for a client that is not registered, a
checkpoint during a logout, and to cancel a logout that is not under way. `Refusal` lists the
reasons, and there are no others. What is refused leaves no trace in the session, although a
registration that is taken in may go as far as to launch the next programs (`Welcomed`); the
manager passes the refusal on to whoever has asked (`cleanRefusals`).
-/

namespace Xsmp

namespace Session

variable {w : Surroundings} {session : Session} {operation : Operation} {error : SessionError}
  {key : ClientKey} {id : String} {previousId : Option String} {turn : Turn}

/-- A reason to refuse an operation. -/
inductive Refusal (session : Session) : Operation → SessionError → Prop
  | late (key : ClientKey) (previousId : Option String) (h : session.phase = .shutdown) :
      Refusal session (.register key previousId) .shuttingDown
  | taken (key : ClientKey) {id : String} (holder : ClientKey)
      (running : session.phase ≠ .shutdown) (nonempty : id ≠ "")
      (held : session.clients.get? holder = some id) :
      Refusal session (.register key (some id)) (.duplicateClientId id)
  | unknownSender {key : ClientKey} (event : ClientEvent) (h : key ∉ session.clients.keys) :
      Refusal session (.report key event) (.unknownClient key)
  | unknownTarget {key : ClientKey} (h : key ∉ session.clients.keys) :
      Refusal session (.stop key) (.unknownClient key)
  | ending (h : session.phase = .shutdown) : Refusal session .checkpoint .shuttingDown
  | running (h : session.phase ≠ .shutdown) : Refusal session .cancelShutdown .notShuttingDown

/-! ## What is refused, and why -/

theorem broughtId_eq_some : broughtId previousId = some id ↔ previousId = some id ∧ id ≠ "" := by
  rw [broughtId, Option.filter_eq_some_iff, Bool.not_eq_true', String.isEmpty_eq_false_iff]

theorem broughtId_eq_none :
    broughtId previousId = none ↔ ∀ brought, previousId = some brought → brought = "" := by
  simp [broughtId, Option.filter_eq_none_iff]

theorem register_eq_error : session.register w key previousId = .error error ↔
    Refusal session (.register key previousId) error := by
  constructor
  · intro h
    unfold register at h
    split at h
    · rename_i hphase
      cases h
      exact .late key previousId hphase
    · rename_i hphase
      split at h
      · rename_i id hbrought
        obtain ⟨rfl, hnonempty⟩ := broughtId_eq_some.mp hbrought
        split at h
        · rename_i htaken
          obtain ⟨holder, hheld⟩ := keyOf?_isSome.mp htaken
          cases h
          exact .taken key holder hphase hnonempty hheld
        · cases h
      · cases h
  · intro h
    cases h with
    | late _ _ hphase => rw [register, if_pos hphase]
    | taken _ holder hphase hnonempty hheld =>
        have hbrought := broughtId_eq_some.mpr ⟨rfl, hnonempty⟩
        have htaken := keyOf?_isSome.mpr ⟨holder, hheld⟩
        simp only [register, if_neg hphase, hbrought, htaken, if_true]

theorem report_eq_error {event : ClientEvent} : session.report w key event = .error error ↔
    Refusal session (.report key event) error := by
  constructor
  · intro h
    unfold report at h
    split at h
    · rename_i hstranger
      cases h
      exact .unknownSender event (KeyMap.contains_eq_false.mp (by simpa using hstranger))
    · cases h
  · intro h
    cases h with
    | unknownSender _ hstranger => simp [report, KeyMap.contains_eq_false.mpr hstranger]

theorem stop_eq_error : session.stop key = .error error ↔ Refusal session (.stop key) error := by
  constructor
  · intro h
    unfold stop at h
    split at h
    · cases h
    · rename_i hstranger
      cases h
      exact .unknownTarget (KeyMap.contains_eq_false.mp (by simpa using hstranger))
  · intro h
    cases h with
    | unknownTarget hstranger => simp [stop, KeyMap.contains_eq_false.mpr hstranger]

theorem checkpoint_eq_error : session.checkpoint = .error error ↔
    Refusal session .checkpoint error := by
  constructor
  · intro h
    unfold checkpoint at h
    split at h
    · rename_i hphase
      cases h
      exact .ending hphase
    · cases h
  · intro h
    cases h with
    | ending hphase => rw [checkpoint, if_pos hphase]

theorem cancelShutdown_eq_error : session.cancelShutdown = .error error ↔
    Refusal session .cancelShutdown error := by
  constructor
  · intro h
    unfold cancelShutdown at h
    split at h
    · cases h
    · rename_i hphase
      cases h
      exact .running hphase
  · intro h
    cases h with
    | running hphase => rw [cancelShutdown, if_neg hphase]

/-- **What is refused does nothing.** -/
theorem perform_refused (w : Surroundings) (h : Refusal session operation error) :
    perform w operation session = { session } := by
  cases operation with
  | register key previousId => simp only [perform, register_eq_error.mpr h, Except.map]
  | report key event => simp only [perform, report_eq_error.mpr h]
  | stop key => simp only [perform, stop_eq_error.mpr h]
  | checkpoint => simp only [perform, checkpoint_eq_error.mpr h]
  | cancelShutdown => simp only [perform, cancelShutdown_eq_error.mpr h]
  | _ => cases h

/-! ## Registrations that are not refused -/

/-- A client that is taken in is called once, with its identifier, and before all else. -/
structure Welcomed (w : Surroundings) (session : Session) (key : ClientKey)
    (previousId : Option String) (id : String) (turn : Turn) : Prop where
  /-- An identifier that the client brings is its identifier. What follows the call is about
  programs and phases only. -/
  kept : ∀ brought, previousId = some brought → brought ≠ "" → id = brought
    ∧ ∃ rest, turn.effects = .called key (.registered id true) :: rest
      ∧ ∀ client call, .called client call ∉ rest
  /-- A client that brings none has one made for it, and that is all that happens. -/
  made : (∀ brought, previousId = some brought → brought = "") →
    id = (session.ids.mint (w.clock none)).1
      ∧ turn = {
        session := { session with
          ids := (session.ids.mint (w.clock none)).2, clients := session.clients.insert key id }
        effects := [.called key (.registered id false)] }
  /-- The client is entered under its identifier. -/
  entered : turn.session.clients = session.clients.insert key id

theorem welcomed_register (h : session.register w key previousId = .ok (id, turn)) :
    Welcomed w session key previousId id turn := by
  obtain ⟨ids, resumed, rest, heffects, hstarts⟩ := startsUp_register h
  obtain ⟨_, _, _, _, _, hframe⟩ := hstarts.frame
  have hphase : session.phase ≠ .shutdown := by
    intro hphase
    simp [register, hphase] at h
  refine ⟨?_, ?_, congrArg Session.clients hframe⟩
  · intro brought hprevious hnonempty
    have hbrought := broughtId_eq_some.mpr ⟨hprevious, hnonempty⟩
    simp only [register, if_neg hphase, hbrought] at h
    split at h
    · cases h
    · obtain ⟨rfl, rfl⟩ := Prod.mk.inj (Except.ok.inj h)
      obtain ⟨-, hcall⟩ := Effect.called.inj (List.cons.inj heffects).1
      obtain ⟨-, rfl⟩ := ClientCall.registered.inj hcall
      refine ⟨rfl, rest, heffects, fun client call hmem => ?_⟩
      exact absurd (hstarts.effects _ hmem) (by simp [Effect.isStartup])
  · intro hnone
    simp only [register, if_neg hphase, broughtId_eq_none.mpr hnone] at h
    obtain ⟨rfl, rfl⟩ := Prod.mk.inj (Except.ok.inj h)
    exact ⟨rfl, rfl⟩

end Session

namespace Manager

open Session (Refusal Welcomed perform)

variable {w : Surroundings} {manager : Manager} {key : ClientKey} {reason : String}

theorem refuse_eq (key : ClientKey) (reason : String) (manager : Manager) :
    refuse key reason manager = {
      manager := { manager with connections := manager.connections.filter (· != key) }
      actions := .sent key (.registrationRefused reason) ::
        if key ∈ manager.connections then [.closed key] else [] } := by
  by_cases hopen : key ∈ manager.connections
  · simp [refuse, close, ManagerTurn.andThen, hopen, Participant.refusal]
  · have hsame : manager.connections.filter (· != key) = manager.connections := by
      refine List.filter_eq_self.mpr fun other hmem => bne_iff_ne.mpr ?_
      rintro rfl
      exact hopen hmem
    simp [refuse, close, ManagerTurn.andThen, hopen, hsame, Participant.refusal]

/-- A session refuses what it has a reason to refuse and nothing else, and nothing comes of what
is refused but word to whoever has asked. -/
structure CleanRefusals (w : Surroundings) (manager : Manager) : Prop where
  register : ∀ key previousId error,
    manager.session.register w key previousId = .error error ↔
      Refusal manager.session (.register key previousId) error
  report : ∀ key event error,
    manager.session.report w key event = .error error ↔
      Refusal manager.session (.report key event) error
  stop : ∀ key error,
    manager.session.stop key = .error error ↔ Refusal manager.session (.stop key) error
  checkpoint : ∀ error,
    manager.session.checkpoint = .error error ↔ Refusal manager.session .checkpoint error
  cancelShutdown : ∀ error,
    manager.session.cancelShutdown = .error error ↔
      Refusal manager.session .cancelShutdown error
  /-- The session is as it was, and has neither called a client nor launched a program nor had
  anything to tell. -/
  unchanged : ∀ operation error, Refusal manager.session operation error →
    perform w operation manager.session = { session := manager.session }
  /-- A client that is not taken in has not been spoken to by the session. The manager tells it
  why and closes its connection. -/
  turnedAway : ∀ key participant previousId error,
    Refusal manager.session (.register key previousId) error →
      greet w key participant (.registerClient previousId) manager = {
        manager := { manager with connections := manager.connections.filter (· != key) }
        actions := .sent key (.registrationRefused error.message) ::
          if key ∈ manager.connections then [.closed key] else [] }
  /-- What an unknown client reports is passed over. -/
  ignored : ∀ key event error, Refusal manager.session (.report key event) error →
    Manager.report w key event manager = { manager }
  /-- A control request that is refused is answered with the error. -/
  checkpointAnswered : ∀ error, Refusal manager.session .checkpoint error →
    control .checkpoint manager =
      { manager, actions := [.answered (.error "shutting_down" error.message)] }
  cancelAnswered : ∀ error, Refusal manager.session .cancelShutdown error →
    control .cancelLogout manager =
      { manager, actions := [.answered (.error "not_shutting_down" error.message)] }
  welcomed : ∀ key previousId id turn,
    manager.session.register w key previousId = .ok (id, turn) →
      Welcomed w manager.session key previousId id turn

/-- **A refused operation changes nothing.** -/
theorem cleanRefusals (w : Surroundings) (manager : Manager) : CleanRefusals w manager := by
  constructor
  case register => exact fun _ _ _ => Session.register_eq_error
  case report => exact fun _ _ _ => Session.report_eq_error
  case stop => exact fun _ _ => Session.stop_eq_error
  case checkpoint => exact fun _ => Session.checkpoint_eq_error
  case cancelShutdown => exact fun _ => Session.cancelShutdown_eq_error
  case unchanged => exact fun _ _ => Session.perform_refused w
  case turnedAway =>
    intro key participant previousId error hrefusal
    have hregister := Session.register_eq_error (w := manager.surroundings w) |>.mpr hrefusal
    simp only [greet, hregister]
    exact refuse_eq key error.message manager
  case ignored =>
    intro key event error hrefusal
    have hreport := Session.report_eq_error (w := manager.surroundings w) |>.mpr hrefusal
    simp only [Manager.report, hreport]
  case checkpointAnswered =>
    intro error hrefusal
    simp only [control, Session.checkpoint_eq_error.mpr hrefusal]
    rfl
  case cancelAnswered =>
    intro error hrefusal
    simp only [control, Session.cancelShutdown_eq_error.mpr hrefusal]
    rfl
  case welcomed => exact fun _ _ _ _ => Session.welcomed_register

end Manager

end Xsmp
