import Xsmp.Proofs.Session.Round

/-!
# No logout hangs

A logout that is not over waits for somebody who has been asked and can answer.
So it is enough that everybody answers: whatever else happens in between, the
logout is completed by the very step that takes the last client off the list.
What has to be shown is that every step that takes a client off the list looks
whether anybody is left, and that is `LogoutInv.waits` after the step.
-/

namespace Xsmp.Session

variable {session : Session} {step last : Step} {before after steps : List Step}
  {key : ClientKey}

/-- A logout is neither cancelled nor cut short. -/
def GoesOn : Session → List Step → Prop
  | _, [] => True
  | session, step :: steps => ¬Cancels session step.2 ∧ step.2 ≠ .forceShutdown
      ∧ GoesOn (take step session).session steps

theorem phase_perform {w : Surroundings} {operation : Operation} (hinv : LogoutInv session)
    (hphase : session.phase = .shutdown) (hkept : ¬Cancels session operation) :
    (perform w operation session).session.phase = .shutdown := by
  cases barrierStep w hinv hphase operation with
  | cancels h _ => exact absurd h hkept
  | forces _ _ hturn => rw [hturn]; exact hphase
  | holds _ hnext _ hturn => rw [hturn]; exact hnext.phase.trans hphase
  | completes _ hnext _ _ _ hturn => rw [hturn]; exact hnext.phase.trans hphase
  | resumes _ hnext _ _ _ hturn => rw [hturn]; exact hnext.phase.trans hphase

theorem GoesOn.lasts (h : GoesOn session steps) (hinv : LogoutInv session)
    (hphase : session.phase = .shutdown) : Lasts session steps := by
  induction steps generalizing session with
  | nil => trivial
  | cons step steps ih =>
      have hnext := phase_perform (w := step.1) hinv hphase h.1
      exact ⟨hphase, ih h.2.2 (logoutInv_step hinv step) hnext⟩

/-- A step takes the last client off the list of those who owe a save: somebody owed it until
then, and nobody does after it. -/
structure LastDischarge (session : Session) (before : List Step) (last : Step) : Prop where
  somebody : ∃ key, Owes session key ∧ ¬Discharged key before ∧ last.2.discharges key = true
  everybody : ∀ key, Owes session key → Discharged key (before ++ [last])

/-- A step that leaves a logout over is the one that takes the last client off the list. -/
theorem lastDischarge_of_finished (hinv : LogoutInv session) (hphase : session.phase = .shutdown)
    (hfin : session.finished = false) (hforce : step.2 ≠ .forceShutdown)
    (hafter : (take step session).session.finished = true) : LastDischarge session [] step := by
  have hdone := completed_of_finished hinv hphase hfin hafter
  obtain ⟨hcompletes, hnobody⟩ := completes_perform hinv hphase hdone
  have hall : ∀ key, Owes session key → step.2.discharges key = true := by
    intro key howes
    by_contra hdis
    have hstill := (owes_perform hinv hphase hcompletes.phase key).mpr ⟨howes, by simpa using hdis⟩
    exact hnobody hforce key hstill
  obtain ⟨key, howes⟩ := hinv.owes hphase hfin
  refine ⟨⟨key, howes, by simp [Discharged], hall key howes⟩, ?_⟩
  exact fun key howes => ⟨step, by simp, hall key howes⟩

/-- The last client stays the last one when seen from a step before. -/
theorem LastDischarge.cons (h : LastDischarge (take step session).session before last)
    (howes : ∀ key, Owes (take step session).session key ↔
      Owes session key ∧ step.2.discharges key = false) :
    LastDischarge session (step :: before) last := by
  obtain ⟨⟨key, hkey, hbefore, hlast⟩, hall⟩ := h
  obtain ⟨hkey, hdis⟩ := (howes key).mp hkey
  refine ⟨⟨key, hkey, not_discharged_cons.mpr ⟨hdis, hbefore⟩, hlast⟩, ?_⟩
  intro k hk
  by_cases hkdis : step.2.discharges k = true
  · exact ⟨step, by simp, hkdis⟩
  · obtain ⟨answer, hmem, hanswer⟩ := hall k ((howes k).mpr ⟨hk, by simpa using hkdis⟩)
    exact ⟨answer, List.mem_cons_of_mem step hmem, hanswer⟩

/-- A logout in which everybody answers is completed by the last answer. -/
theorem completed_by_last (hinv : LogoutInv session) (hphase : session.phase = .shutdown)
    (hfin : session.finished = false) (hgoes : GoesOn session steps)
    (hall : ∀ key, Owes session key → Discharged key steps) :
    ∃ before last after, steps = before ++ last :: after ∧ LastDischarge session before last
      ∧ .shutdownCompleted ∉ (run session before).effects
      ∧ (turnAt session before last).effects.count .shutdownCompleted = 1
      ∧ .shutdownCompleted ∉ (run (turnAt session before last).session after).effects := by
  induction steps generalizing session with
  | nil =>
      obtain ⟨key, howes⟩ := hinv.owes hphase hfin
      obtain ⟨_, hmem, _⟩ := hall key howes
      exact absurd hmem (by simp)
  | cons step steps ih =>
      obtain ⟨hkept, hforce, hrest⟩ := hgoes
      have hnext := logoutInv_step hinv step
      have hstays : (take step session).session.phase = .shutdown :=
        phase_perform hinv hphase hkept
      by_cases hafter : (take step session).session.finished = true
      · -- the logout is over with this step, and nothing later says so again
        have hdone := completed_of_finished hinv hphase hfin hafter
        have hsilent := isFlag_finished.silent hnext (hrest.lasts hnext hstays) hafter
        refine ⟨[], step, steps, rfl, ?_, by simp, ?_, fun he => hsilent _ he rfl⟩
        · exact lastDischarge_of_finished hinv hphase hfin hforce hafter
        · exact (completes_perform hinv hphase hdone).1.once
      · -- whoever is still waited for has its answer among the steps to come
        have howes := owes_perform hinv hphase hstays
        have hall' : ∀ key, Owes (take step session).session key → Discharged key steps := by
          intro key hkey
          obtain ⟨hkey, hdis⟩ := (howes key).mp hkey
          by_contra hnot
          exact not_discharged_cons.mpr ⟨hdis, hnot⟩ (hall key hkey)
        obtain ⟨before, last, after, rfl, hlast, hbefore, honce, hsilent⟩ :=
          ih hnext hstays (by simpa using hafter) hrest hall'
        refine ⟨step :: before, last, after, rfl, hlast.cons howes, ?_, honce, hsilent⟩
        intro he
        rcases List.mem_append.mp he with he | he
        · exact hafter (completes_perform hinv hphase he).1.after
        · exact hbefore he

/-- **No logout hangs.** One that is not over waits for a client that was asked. If it is
neither cancelled nor cut short, and all clients that owe a save report or go, in whatever
order and among whatever else, it is completed once, by the last of them. -/
theorem logout_never_stalls (h : Reachable session) (hphase : session.phase = .shutdown)
    (hfin : session.finished = false) :
    (session.saving ≠ [] ∨ (session.deferred ≠ [] ∧ session.phase2Started = true))
    ∧ ∀ steps, GoesOn session steps → (∀ key, Owes session key → Discharged key steps) →
      ∃ before last after, steps = before ++ last :: after ∧ LastDischarge session before last
        ∧ .shutdownCompleted ∉ (run session before).effects
        ∧ (turnAt session before last).effects.count .shutdownCompleted = 1
        ∧ .shutdownCompleted ∉ (run (turnAt session before last).session after).effects := by
  have hinv := logoutInv_reachable h
  exact ⟨hinv.waits hphase hfin, fun steps => completed_by_last hinv hphase hfin⟩

/-- Two clients who owe a save are done one after the other, and the user is asked in between. -/
theorem logout_never_stalls_pair :
    ∃ session steps, Reachable session ∧ session.phase = .shutdown ∧ session.finished = false
      ∧ session.saving = [2] ∧ session.deferred = [1] ∧ GoesOn session steps
      ∧ (∀ key, Owes session key → Discharged key steps)
      ∧ ∃ before last after, steps = before ++ last :: after ∧ LastDischarge session before last
        ∧ .shutdownCompleted ∉ (run session before).effects
        ∧ (turnAt session before last).effects.count .shutdownCompleted = 1
        ∧ .shutdownCompleted ∉ (run (turnAt session before last).session after).effects := by
  let session := (run pair (pairRound.take 2)).session
  let steps : List Step :=
    [(still, .report 1 .requestInteraction), (still, .report 1 .disconnected),
      (still, .report 2 (.interactionDone false)), (still, .report 2 .saveYourselfDone)]
  have hreach : Reachable session := pair_reachable.run _
  have hgoes : GoesOn session steps := by
    refine ⟨?_, by simp, ?_, by simp, ?_, by simp, ?_, by simp, trivial⟩ <;> simp [Cancels]
  have hall : ∀ key, Owes session key → Discharged key steps := by
    have howes : ∀ key, Owes session key → key = 2 ∨ key = 1 := by
      intro key hcase
      rcases hcase with hkey | hkey
      · exact .inl (List.mem_singleton.mp hkey)
      · exact .inr (List.mem_singleton.mp hkey)
    intro key hkey
    rcases howes key hkey with rfl | rfl
    · exact ⟨(still, .report 2 .saveYourselfDone), by simp [steps], rfl⟩
    · exact ⟨(still, .report 1 .disconnected), by simp [steps], rfl⟩
  exact ⟨session, steps, hreach, rfl, rfl, rfl, rfl, hgoes, hall,
    (logout_never_stalls hreach rfl rfl).2 steps hgoes hall⟩

end Xsmp.Session
