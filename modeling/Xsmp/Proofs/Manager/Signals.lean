import Xsmp.Manager.Service
import Xsmp.Proofs.Manager.Completion
import Xsmp.Proofs.Manager.Stalled
import Xsmp.Proofs.Session.Cancelled

/-!
# A second signal ends the session

The first signal is a logout, and a logout waits for clients that may never answer. The second
one does not wait. For that the logout has to be going on still when the second signal comes:
nothing but a cancellation leaves it (`leaves_iff_cancels`), whatever the clients do or fail to
do. If the session is finished by then, the manager has been told.
-/

namespace Xsmp

/-- A client says that its turn with the user is over by saying so. -/
theorem Participant.reported_interactionDone {participant : Participant} {message : ClientMessage}
    {cancel : Bool} :
    (participant.received message).reported = some (.interactionDone cancel) ↔
      message = .interactDone cancel := by
  cases message with
  | saveYourselfRequest saveType shutdown style fast isGlobal =>
      cases shutdown <;> cases isGlobal <;> simp [received, requestSave]
  | saveYourselfPhase2Request =>
      simp only [received]
      split <;> simp
  | saveYourselfDone success =>
      simp only [received, saveDone]
      split <;> simp
  | _ => simp [received]

namespace Service

variable {turn : ManagerTurn}

/-- A service that ends does not run any more, however the lock of the authority file stands. -/
theorem finish_not_running (service : Service) (manager : Manager) (lock : LockStage)
    (running : Manager) : (finish service manager lock).service.stage ≠ .running running := by
  unfold finish
  rcases lock.advance service.authority service.clock service.tree with ⟨tree, reached⟩
  cases reached <;> exact Stage.noConfusion

/-- **A service ends when it takes over from a manager whose session has ended.** -/
theorem adopt_not_running (h : turn.manager.completed = true) (service : Service)
    (control : Option Nat) (running : Manager) :
    (service.adopt control turn).service.stage ≠ .running running := by
  unfold adopt
  show (if turn.manager.completed = true then _ else _ : ServiceTurn).service.stage ≠ _
  rw [if_pos h]
  exact finish_not_running _ turn.manager (.checking .created) running

end Service

namespace Manager

open Session (LogoutInv perform)

variable {w : Surroundings} {manager : Manager} {event : ManagerEvent} {before steps : List Step}

/-! ## How a logout is left -/

/-- An event that cancels the logout that is going on: a control request, or the word of the
client that has its turn with the user. -/
inductive CancelsLogout (manager : Manager) : ManagerEvent → Prop
  | requested (phase : manager.session.phase = .shutdown) :
      CancelsLogout manager (.control .cancelLogout)
  | said {key : ClientKey} (phase : manager.session.phase = .shutdown)
      (registered : key ∈ manager.session.clients.keys)
      (turn : manager.session.interacting.head? = some key) :
      CancelsLogout manager (.message key (.interactDone true))

theorem cancelsLogout_iff (hbooks : Books manager) (hphase : manager.session.phase = .shutdown) :
    CancelsLogout manager event ↔
      ∃ operation, manager.asked? event = some operation
        ∧ Session.Cancels manager.session operation := by
  constructor
  · intro h
    cases h with
    | requested _ => exact ⟨.cancelShutdown, rfl, .inl rfl⟩
    | @said key _ hregistered hturn =>
        obtain ⟨queue, hqueue⟩ := hbooks.getD hregistered
        obtain ⟨participant, hget, _⟩ := Option.map_eq_some_iff.mp hqueue
        have hidle : manager.handshakes.get? key = none := by
          rw [Option.eq_none_iff_forall_ne_some]
          exact fun handshake hwaits => (hbooks.waiting key handshake hwaits).1 hregistered
        refine ⟨.report key (.interactionDone true), ?_, .inr ⟨key, rfl, hregistered, hturn⟩⟩
        simp [asked?, KeyMap.contains, hidle, hget, Participant.received]
  · rintro ⟨operation, hasked, rfl | ⟨key, rfl, hregistered, hturn⟩⟩
    · cases asked_of_some hasked
      exact .requested hphase
    · cases asked_of_some hasked with
      | report _ hreported =>
          obtain rfl := Participant.reported_interactionDone.mp hreported
          exact .said hphase hregistered hturn

/-- **A logout is left by just the events that cancel it.** -/
theorem leaves_iff_cancels (h : Reachable manager) (hphase : manager.session.phase = .shutdown)
    (step : Step) :
    (take step manager).manager.session.phase ≠ .shutdown ↔ CancelsLogout manager step.2 := by
  obtain ⟨hsession, hbooks⟩ := reachable_books h
  have hinv := Session.logoutInv_reachable hsession
  rw [cancelsLogout_iff hbooks hphase, (h.noticed step).session]
  constructor
  · intro hleft
    cases hasked : manager.asked? step.2 with
    | none =>
        rw [sessionTurn_of_none hasked] at hleft
        exact absurd hphase hleft
    | some operation =>
        rw [sessionTurn_of_some hasked] at hleft
        refine ⟨operation, rfl, ?_⟩
        by_contra hkept
        exact hleft (Session.phase_perform hinv hphase hkept)
  · rintro ⟨operation, hasked, hcancels⟩
    have hturn := Session.cancelShutdown_of_cancels
      (w := around step.1 step.2 manager) hphase hcancels
    rw [sessionTurn_of_some hasked, Session.cancelShutdown_eq hturn]
    simp

/-- No event of a run cancels a logout. -/
def NoneCancels : Manager → List Step → Prop
  | _, [] => True
  | manager, step :: steps =>
    ¬CancelsLogout manager step.2 ∧ NoneCancels (take step manager).manager steps

theorem NoneCancels.uncancelled (h : NoneCancels manager steps) (hreach : Reachable manager) :
    Uncancelled manager steps := by
  induction steps generalizing manager with
  | nil => trivial
  | cons step steps ih =>
      refine ⟨fun hphase => ?_, ih h.2 (hreach.tail step)⟩
      by_contra hleft
      exact h.1 ((leaves_iff_cancels hreach hphase step).mp hleft)

/-! ## The two signals -/

/-- After a signal a logout is going on, or over. -/
theorem phase_signal (h : Reachable manager) (w : Surroundings) :
    (take (w, .signal) manager).manager.session.phase = .shutdown := by
  have hinv := Session.logoutInv_reachable (reachable_books h).1
  rw [(h.noticed (w, .signal)).session]
  by_cases hphase : manager.session.phase = .shutdown
  · have hasked : manager.asked? .signal = some .forceShutdown := by simp [asked?, hphase]
    rw [sessionTurn_of_some hasked]
    exact Session.phase_perform hinv hphase (by simp [Session.Cancels])
  · have hasked : manager.asked? .signal = some .beginShutdown := by simp [asked?, hphase]
    rw [sessionTurn_of_some hasked]
    exact Session.phase_beginShutdown hphase

/-- A signal that finds a logout going on ends the session. -/
theorem completed_signal (h : Reachable manager) (hphase : manager.session.phase = .shutdown)
    (w : Surroundings) : (take (w, .signal) manager).manager.completed = true := by
  rw [(h.noticed (w, .signal)).completed]
  cases hfin : manager.session.finished with
  | true => exact .inl (completed_of_finished h hfin)
  | false =>
      refine .inr ?_
      have hasked : manager.asked? .signal = some .forceShutdown := by simp [asked?, hphase]
      rw [sessionTurn_of_some hasked]
      simp [perform, Session.forceShutdown, hphase, hfin, Session.finish]

/-- A manager that is run deals with nothing after its session has ended. -/
theorem run_append_of_completed (h : (handleEach manager before).manager.completed = true)
    (later : List Step) :
    (run manager before).manager.completed = true
      ∧ run manager (before ++ later) = run manager before := by
  induction before generalizing manager with
  | nil => exact ⟨h, run_of_completed h later⟩
  | cons first before ih =>
      by_cases hdone : manager.completed = true
      · rw [run_of_completed hdone, run_of_completed hdone]
        exact ⟨hdone, rfl⟩
      · have hstep : Manager.step first.1 first.2 manager = take first manager := by
          rw [Manager.step, if_neg hdone]
        obtain ⟨hrest, hsame⟩ := ih h
        rw [List.cons_append, run, run, hstep]
        exact ⟨hrest, by rw [ManagerTurn.andThen, hsame]; rfl⟩

theorem Started.not_completed (h : Started manager) : manager.completed ≠ true := by
  obtain ⟨w, manifests, ids, name, phaseTimeout, handshakeTimeout⟩ := h
  have hinv := Session.logoutInv_init manifests ids name phaseTimeout
  rw [Ne, (unfinished_start w hinv (by simp [Session.new])).2]
  exact Bool.false_ne_true

/-- The session has ended by the end of a run, and everybody knows. -/
structure SessionOver (manager : Manager) (steps : List Step) : Prop where
  /-- The session has given word of it. -/
  emitted : Emitted manager steps .shutdownCompleted
  /-- The manager has been told. -/
  completed : (handleEach manager steps).manager.completed = true
  /-- A manager that is run deals with nothing any more. -/
  nothingMore : ∀ later, run manager (steps ++ later) = run manager steps
  /-- A service that takes over from it runs no longer. -/
  stops : ∀ service control running,
    (Service.adopt service control (run manager steps)).service.stage ≠ .running running

/-- **A second signal ends the session**, in whatever state the first one finds it and whatever
happens between the two, if only no event there cancels the logout. -/
theorem second_signal_ends (hstart : Started manager) (before between : List Step)
    (w w' : Surroundings)
    (hkept : NoneCancels (handleEach manager (before ++ [(w, .signal)])).manager between) :
    SessionOver manager (before ++ (w, .signal) :: (between ++ [(w', .signal)])) := by
  have hreach : Reachable (handleEach manager (before ++ [(w, .signal)])).manager :=
    hstart.reachable.handleEach _
  have hphase : (handleEach manager (before ++ [(w, .signal)])).manager.session.phase =
      .shutdown := by
    rw [handleEach_snoc_manager]
    exact phase_signal (hstart.reachable.handleEach before) w
  have hstill := ((hkept.uncancelled hreach).lasts hphase).2
  have hsteps : before ++ (w, .signal) :: (between ++ [(w', .signal)]) =
      ((before ++ [(w, .signal)]) ++ between) ++ [(w', .signal)] := by simp
  have hcompleted : (handleEach manager
      (before ++ (w, .signal) :: (between ++ [(w', .signal)]))).manager.completed = true := by
    rw [hsteps, handleEach_snoc_manager, handleEach_append_manager]
    exact completed_signal (hreach.handleEach between) hstill w'
  have hrun := run_append_of_completed hcompleted
  refine ⟨?_, hcompleted, fun later => (hrun later).2, fun service control running => ?_⟩
  · exact ((completed_handleEach hstart.reachable _).mp hcompleted).resolve_left
      hstart.not_completed
  · exact Service.adopt_not_running (hrun []).1 service control running

/-- A client registers and is asked to save by the first signal. It asks for the user's
attention, says that its turn is over, and never saves; somebody else connects. -/
theorem second_signal_ends_unanswered :
    let before : List Step := [(Session.still, .accepted),
      (Session.still, .message 1 (.registerClient (some "a")))]
    let between : List Step := [(Session.still, .message 1 (.interactRequest .any)),
      (Session.still, .message 1 (.interactDone false)), (Session.still, .control .logout),
      (Session.still, .accepted)]
    let signal : Step := (Session.still, .signal)
    NoneCancels (handleEach waiting (before ++ [signal])).manager between
    ∧ (handleEach waiting (before ++ signal :: between)).manager.completed = false
    ∧ SessionOver waiting (before ++ signal :: (between ++ [signal])) := by
  intro before between signal
  have hkept : NoneCancels (handleEach waiting (before ++ [signal])).manager between :=
    ⟨nofun, nofun, nofun, nofun, trivial⟩
  exact ⟨hkept, rfl, second_signal_ends waiting_started before between _ _ hkept⟩

end Manager

end Xsmp
