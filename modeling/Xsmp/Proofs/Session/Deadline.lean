import Xsmp.Proofs.Session.Waiting

/-!
# No startup waits for nothing

Whatever has happened to a session, a startup phase that it is in has somebody to
wait for, and for as long as was set when the phase began. The time of the beginning
is not in the state, so it is read off the run: it is that of the last step that
changed the phase (`Timed`). `upToEnd` takes every operation apart at the place where
it ends a phase, and in no state that a session can be in is a phase ended there
that does not come before `running`.
-/

namespace Xsmp.Session

variable {w : Surroundings} {start session : Session} {operation : Operation}

/-- The phase that a session is in after a run was begun by one of its steps, changed by none
after it, and has its deadline from there. -/
def Timed (start : Session) (steps : List Step) : Prop :=
  ∃ before step after, steps = before ++ step :: after
    ∧ .phaseChanged (run start steps).session.phase ∈ (turnAt start before step).effects
    ∧ (∀ phase, .phaseChanged phase ∉ (run (turnAt start before step).session after).effects)
    ∧ (run start steps).session.deadline = deadlineAfter step.1.now start.phaseTimeout

/-- A step that leaves the phase and its deadline alone does not matter. -/
theorem Timed.snoc {steps : List Step} {step : Step} (h : Timed start steps)
    (hphase : (turnAt start steps step).session.phase = (run start steps).session.phase)
    (hdeadline : (turnAt start steps step).session.deadline = (run start steps).session.deadline)
    (hsilent : ∀ phase, .phaseChanged phase ∉ (turnAt start steps step).effects) :
    Timed start (steps ++ [step]) := by
  obtain ⟨before, first, after, rfl, hmem, hnone, htime⟩ := h
  refine ⟨before, first, after ++ [step], by simp, ?_, ?_, ?_⟩
  · rw [run_snoc_session, hphase]
    exact hmem
  · intro phase he
    rw [run_append_effects] at he
    rcases List.mem_append.mp he with he | he
    · exact hnone phase he
    · have hend : (run (turnAt start before first).session after).session =
          (run start (before ++ first :: after)).session := by
        rw [run_append_session]
        rfl
      rw [hend] at he
      exact hsilent phase (by simpa [Turn.andThen] using he)
  · rw [run_snoc_session, hdeadline]
    exact htime

end Xsmp.Session
