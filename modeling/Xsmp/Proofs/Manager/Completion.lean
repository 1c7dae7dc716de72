import Xsmp.Proofs.Manager.Course

/-!
# How the manager learns that its session has ended

The manager does not look whether its session is finished. It is given word of that, among all
else that the session does about an event, and remembers it. So what the manager knows is what
the session has said (`completed_handleEach`), and for that to be worth anything a session that
is finished has to have said so (`completed_of_finished`).
-/

namespace Xsmp.Manager

open Session (LogoutInv Operation perform)

variable {w : Surroundings} {manager : Manager} {step : Step} {steps : List Step}

/-! ## Word that the session has ended -/

theorem completed_relay (effect : Effect) (manager : Manager) :
    (relay effect manager).manager.completed = true ↔
      manager.completed = true ∨ effect = .shutdownCompleted := by
  cases effect with
  | called client call =>
      have hsame : (relay (.called client call) manager).manager.completed = manager.completed := by
        by_cases hrestart : call = .restart
        · rw [hrestart]
          rfl
        · cases hget : manager.participants.get? client with
          | none => rw [relay_called_none hget]
          | some participant => rw [relay_called_some hrestart hget]
      simp [hsame]
  | shutdownCompleted => simp [relay]
  | _ => simp [relay]

theorem completed_relayAll (effects : List Effect) (manager : Manager) :
    (relayAll effects manager).manager.completed = true ↔
      manager.completed = true ∨ .shutdownCompleted ∈ effects := by
  induction effects generalizing manager with
  | nil => simp [relayAll]
  | cons effect effects ih =>
      rw [relayAll, ManagerTurn.andThen_manager, ih, completed_relay, List.mem_cons, or_assoc,
        eq_comm (a := effect)]

theorem completed_follow (manager : Manager) (turn : Turn) :
    (manager.follow turn).manager.completed = true ↔
      manager.completed = true ∨ .shutdownCompleted ∈ turn.effects :=
  completed_relayAll turn.effects { manager with session := turn.session }

/-- The session does what an event asks of it, and the manager knows afterwards whether the
session has given word that it has ended. -/
structure Noticed (w : Surroundings) (manager : Manager) (event : ManagerEvent)
    (turn : ManagerTurn) : Prop where
  session : turn.manager.session = (sessionTurn w manager event).session
  completed : turn.manager.completed = true ↔
    manager.completed = true ∨ .shutdownCompleted ∈ (sessionTurn w manager event).effects

/-- What the session does while an event is dealt with. -/
def effectsOf (step : Step) (manager : Manager) : List Effect :=
  (sessionTurn (around step.1 step.2 manager) manager step.2).effects

/-- **Whatever happens, the manager hears when its session has ended.** -/
theorem handle_noticed (hbooks : Books manager) (w : Surroundings) (event : ManagerEvent) :
    Noticed (around w event manager) manager event (handle w event manager) := by
  obtain ⟨prepared, hheeds, hcourse⟩ := attends_handle hbooks w event
  refine ⟨hcourse.session, ?_⟩
  rw [hcourse.completed, completed_follow, hheeds.completed]

/-! ## A finished session has given its word -/

/-- A session is finished by an operation only with word of it. -/
theorem emitted_of_finished {session : Session} {operation : Operation} (hinv : LogoutInv session)
    (hbefore : session.finished = false)
    (hafter : (perform w operation session).session.finished = true) :
    .shutdownCompleted ∈ (perform w operation session).effects := by
  by_cases hphase : session.phase = .shutdown
  · exact Session.completed_of_finished hinv hphase hbefore hafter
  · cases Session.calmStep w (hinv.isCalm hphase) operation with
    | stays hcalm _ _ => exact absurd (hcalm.finished.symm.trans hafter) (by simp)
    | begins _ hturn =>
        rw [hturn] at hafter ⊢
        -- a logout that begins is over at once exactly if nobody is there
        rcases Session.beginShutdown_cases hphase with ⟨_, heq⟩ | ⟨_, heq⟩
        · rw [heq]
          simp
        · rw [heq] at hafter
          exact absurd hafter (by simp)

/-- A session that starts is not finished by that. -/
theorem unfinished_start (w : Surroundings) (hinv : LogoutInv manager.session)
    (hphase : manager.session.phase ≠ .shutdown) :
    (start w manager).manager.session.finished = false
      ∧ ((start w manager).manager.completed = true ↔ manager.completed = true) := by
  have hcompleted := completed_follow manager
    (perform (manager.surroundings w) .start manager.session)
  cases Session.calmStep (manager.surroundings w) (hinv.isCalm hphase) .start with
  | stays hcalm heffects _ =>
      have hsilent : .shutdownCompleted ∉
          (perform (manager.surroundings w) .start manager.session).effects :=
        fun hmem => absurd (heffects _ hmem) Bool.false_ne_true
      refine ⟨?_, hcompleted.trans (or_iff_left hsilent)⟩
      rw [start_session]
      exact hcalm.finished
  | begins h _ => rcases h with heq | ⟨_, _, heq⟩ <;> cases heq

theorem Reachable.noticed (h : Reachable manager) (step : Step) :
    Noticed (around step.1 step.2 manager) manager step.2 (take step manager) :=
  handle_noticed (reachable_books h).2 step.1 step.2

/-- **A session is never finished behind the manager's back.** -/
theorem completed_of_finished (h : Reachable manager) (hfin : manager.session.finished = true) :
    manager.completed = true := by
  induction h with
  | init w manifests ids name phaseTimeout handshakeTimeout =>
      have hinv := Session.logoutInv_init manifests ids name phaseTimeout
      rw [(unfinished_start w hinv (by simp [Session.new])).1] at hfin
      exact absurd hfin (by simp)
  | @tail manager step h ih =>
      have hinv := Session.logoutInv_reachable (reachable_books h).1
      have hnoticed := h.noticed step
      rw [hnoticed.session] at hfin
      rw [hnoticed.completed]
      cases hbefore : manager.session.finished with
      | true => exact .inl (ih hbefore)
      | false =>
          refine .inr ?_
          cases hasked : manager.asked? step.2 with
          | none =>
              rw [sessionTurn_of_none hasked, hbefore] at hfin
              exact absurd hfin (by simp)
          | some operation =>
              rw [sessionTurn_of_some hasked] at hfin ⊢
              exact emitted_of_finished hinv hbefore hfin

/-- The session has done something in the course of a run. -/
def Emitted (manager : Manager) (steps : List Step) (effect : Effect) : Prop :=
  ∃ earlier step later, steps = earlier ++ step :: later
    ∧ effect ∈ effectsOf step (handleEach manager earlier).manager

theorem emitted_cons {effect : Effect} : Emitted manager (step :: steps) effect ↔
    effect ∈ effectsOf step manager ∨ Emitted (take step manager).manager steps effect := by
  constructor
  · rintro ⟨earlier, last, later, heq, hdone⟩
    cases earlier with
    | nil =>
        obtain ⟨rfl, rfl⟩ := List.cons.inj heq
        exact .inl hdone
    | cons first earlier =>
        obtain ⟨rfl, rfl⟩ := List.cons.inj heq
        exact .inr ⟨earlier, last, later, rfl, hdone⟩
  · rintro (hdone | ⟨earlier, last, later, rfl, hdone⟩)
    · exact ⟨[], step, steps, rfl, hdone⟩
    · exact ⟨step :: earlier, last, later, rfl, hdone⟩

/-- **The manager knows that its session has ended exactly if it has been told.** -/
theorem completed_handleEach (h : Reachable manager) (steps : List Step) :
    (handleEach manager steps).manager.completed = true ↔
      manager.completed = true ∨ Emitted manager steps .shutdownCompleted := by
  induction steps generalizing manager with
  | nil => simp [handleEach, Emitted]
  | cons step steps ih =>
      rw [handleEach, ManagerTurn.andThen_manager, ih (h.tail step), (h.noticed step).completed,
        emitted_cons, or_assoc]
      rfl

end Xsmp.Manager
