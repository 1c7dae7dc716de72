import Xsmp.Proofs.Manager.Event

/-!
# Runs of a manager

A manager whose session has ended may still find events that came in before it
notices, so a run here deals with every event, whether the session has ended or
not. `Manager.run` is the run that stops at once. In every state that a run can
reach, the books are in order, and the session is in a state that a run of the
session can reach.
-/

namespace Xsmp.Manager

variable {manager : Manager} {w : Surroundings} {event : ManagerEvent} {turn : ManagerTurn}

/-- An event together with what the manager finds around it. -/
abbrev Step := Surroundings × ManagerEvent

abbrev take (step : Step) (manager : Manager) : ManagerTurn := handle step.1 step.2 manager

/-- Deal with events one after the other, also when the session has ended. -/
def handleEach (manager : Manager) : List Step → ManagerTurn
  | [] => { manager }
  | step :: steps => (take step manager).andThen (handleEach · steps)

theorem handleEach_append_manager (manager : Manager) (before after : List Step) :
    (handleEach manager (before ++ after)).manager =
      (handleEach (handleEach manager before).manager after).manager := by
  induction before generalizing manager with
  | nil => rfl
  | cons step before ih => exact ih (take step manager).manager

theorem handleEach_append_actions (manager : Manager) (before after : List Step) :
    (handleEach manager (before ++ after)).actions =
      (handleEach manager before).actions
        ++ (handleEach (handleEach manager before).manager after).actions := by
  induction before generalizing manager with
  | nil => rfl
  | cons step before ih =>
      have hrest := ih (take step manager).manager
      simp only [List.cons_append, handleEach, ManagerTurn.andThen_actions,
        ManagerTurn.andThen_manager, List.append_assoc]
      rw [hrest]

theorem handleEach_snoc_manager (manager : Manager) (before : List Step) (last : Step) :
    (handleEach manager (before ++ [last])).manager =
      (take last (handleEach manager before).manager).manager := by
  rw [handleEach_append_manager]
  rfl

theorem run_of_completed (h : manager.completed = true) (steps : List Step) :
    run manager steps = { manager } := by
  induction steps with
  | nil => rfl
  | cons next steps ih =>
      obtain ⟨w, event⟩ := next
      have hstep : step w event manager = { manager } := by rw [step, if_pos h]
      rw [run, hstep]
      simp only [ManagerTurn.andThen, ih, List.nil_append]

/-- A run that stops when the session has ended is the beginning of one that does not. -/
theorem run_eq_handleEach (manager : Manager) (steps : List Step) :
    ∃ n, run manager steps = handleEach manager (steps.take n) := by
  induction steps generalizing manager with
  | nil => exact ⟨0, rfl⟩
  | cons next steps ih =>
      obtain ⟨w, event⟩ := next
      by_cases h : manager.completed = true
      · -- nothing is dealt with from here on
        exact ⟨0, run_of_completed h _⟩
      · obtain ⟨n, hn⟩ := ih (handle w event manager).manager
        refine ⟨n + 1, ?_⟩
        have hstep : step w event manager = handle w event manager := by rw [step, if_neg h]
        rw [run, hstep, List.take_succ_cons, handleEach]
        simp only [ManagerTurn.andThen, hn]

/-- The states of all runs of all managers. -/
inductive Reachable : Manager → Prop
  | init (w : Surroundings) (manifests : List Manifest) (ids : ClientIds) (name : Option String)
      (phaseTimeout handshakeTimeout : Nat) :
      Reachable (start w {
        session := { Session.new manifests ids with name, phaseTimeout }
        handshakeTimeout }).manager
  | tail {manager : Manager} (step : Step) (h : Reachable manager) :
      Reachable (take step manager).manager

theorem Reachable.handleEach {manager : Manager} (h : Reachable manager) :
    ∀ steps : List Step, Reachable (Manager.handleEach manager steps).manager
  | [] => h
  | step :: steps => (h.tail step).handleEach steps

/-! ## The books are kept -/

/-- A manager with nobody there has its books in order. -/
theorem books_empty (h : ∀ key, manager.saves? key = none)
    (hclients : manager.session.clients.keys = [])
    (hhand : ∀ key, manager.handshakes.get? key = none) : Books manager := by
  refine ⟨?_, ?_, ?_⟩
  · intro key
    simp [h, hclients]
  · intro key handshake hget
    rw [hhand] at hget
    exact absurd hget (by simp)
  · simp [hclients]

/-- **Every event leaves the books in order.** -/
theorem books_handled (hbooks : Books manager) (hinv : Session.LogoutInv manager.session)
    (h : Handled w manager event turn) : Books turn.manager := by
  -- whoever is registered was registered before or waited to be
  have hclients : ∀ key ∈ turn.manager.session.clients.keys,
      key ∈ manager.session.clients.keys
        ∨ ∃ previousId, manager.asked? event = some (.register key previousId) := by
    intro key hkey
    rw [h.session] at hkey
    cases hasked : manager.asked? event with
    | none =>
        rw [sessionTurn_of_none hasked] at hkey
        exact .inl hkey
    | some operation =>
        rw [sessionTurn_of_some hasked, Session.clients_perform hinv] at hkey
        rcases hkey with ⟨hkey, _⟩ | ⟨previousId, _, _, rfl, _⟩
        · exact .inl hkey
        · exact .inr ⟨previousId, rfl⟩
  have hbound : ∀ key ∈ turn.manager.session.clients.keys, key ≤ manager.lastKey := by
    intro key hkey
    rcases hclients key hkey with hkey | ⟨previousId, hasked⟩
    · exact hbooks.bound key hkey
    · cases asked_of_some hasked with
      | register _ hget => exact (hbooks.waiting key _ hget).2.1
  refine ⟨h.registered, ?_, fun key hkey => Nat.le_trans (hbound key hkey) h.lastKey⟩
  intro key handshake hget
  rcases h.handshakes key handshake hget with ⟨hold, hnot⟩ | ⟨hkey, hlast, hempty⟩
  · obtain ⟨hstranger, hle, hempty⟩ := hbooks.waiting key handshake hold
    refine ⟨?_, Nat.le_trans hle h.lastKey, hempty⟩
    intro hregistered
    rcases hclients key hregistered with hregistered | ⟨previousId, hasked⟩
    · exact hstranger hregistered
    · exact hnot previousId hasked
  · -- whoever is registered has an earlier key than the client that has just come
    refine ⟨?_, Nat.le_of_eq (hkey.trans hlast.symm), hempty⟩
    intro hregistered
    have hearlier := hbound key hregistered
    omega

theorem start_session (w : Surroundings) (manager : Manager) :
    (start w manager).manager.session =
      (Session.start (manager.surroundings w) manager.session).session := follow_session _

/-- **A run of a manager is a run of its session, and the books are in order.** -/
theorem reachable_books (h : Reachable manager) :
    Session.Reachable manager.session ∧ Books manager := by
  induction h with
  | init w manifests ids name phaseTimeout handshakeTimeout =>
      let fresh : Manager := {
        session := { Session.new manifests ids with name, phaseTimeout }
        handshakeTimeout }
      have hreach : Session.Reachable fresh.session := .init manifests ids name phaseTimeout
      have hnext := hreach.tail (fresh.surroundings w, .start)
      have hsession := start_session w fresh
      constructor
      · rw [hsession]
        exact hnext
      · refine books_empty ?_ ?_ ?_
        · intro key
          show (fresh.follow _).manager.saves? key = none
          rw [saves?_follow]
          rfl
        · rw [hsession]
          refine List.eq_nil_iff_forall_not_mem.mpr fun key hkey => ?_
          have hinv := Session.logoutInv_reachable hreach
          have hstarted : key ∈ (Session.perform (fresh.surroundings w) .start
            fresh.session).session.clients.keys := hkey
          rcases (Session.clients_perform hinv key).mp hstarted with
            ⟨hkey, _⟩ | ⟨_, _, _, heq, _⟩
          · exact absurd hkey List.not_mem_nil
          · exact absurd heq (by simp)
        · intro key
          show (fresh.follow _).manager.handshakes.get? key = none
          rw [(follow_rest fresh _).handshakes]
          rfl
  | tail step _ ih =>
      obtain ⟨hreach, hbooks⟩ := ih
      have hinv := Session.logoutInv_reachable hreach
      obtain ⟨w', hhandled⟩ := handle_handled hbooks hinv step.1 step.2
      refine ⟨?_, books_handled hbooks hinv hhandled⟩
      rw [hhandled.session, sessionTurn]
      split
      · exact hreach.tail (w', _)
      · exact hreach

/-- What is known of an event that a run may find next. -/
theorem Reachable.handled (h : Reachable manager) (step : Step) :
    Session.LogoutInv manager.session ∧ Books manager
      ∧ ∃ w, Handled w manager step.2 (take step manager) := by
  obtain ⟨hsession, hbooks⟩ := reachable_books h
  have hinv := Session.logoutInv_reachable hsession
  exact ⟨hinv, hbooks, handle_handled hbooks hinv step.1 step.2⟩

end Xsmp.Manager
