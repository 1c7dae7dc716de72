import Xsmp.Proofs.Session.Progress

/-!
# After a logout is completed

Every client has been told to die and the process may exit. Until it does,
requests and reports go on arriving. All but two kinds of them find nothing left
to do: a request to cancel is heard as it would have been before, and a client
may still get its turn with the user. So completion is final exactly as long as
neither comes in, and in general it is not.
-/

namespace Xsmp.Session

variable {session : Session} {step : Step} {told : ClientKey → Prop}

/-- A word that is not to be heard after a logout is completed: a second completion, another
phase, or word to one of the clients that were told to die. -/
inductive Belated (told : ClientKey → Prop) : Effect → Prop
  | phaseChanged (phase : Phase) : Belated told (.phaseChanged phase)
  | shutdownCompleted : Belated told .shutdownCompleted
  | shutdownCancelled {key : ClientKey} (h : told key) :
      Belated told (.called key .shutdownCancelled)
  | interact {key : ClientKey} (h : told key) : Belated told (.called key .interact)
  | saveYourself {key : ClientKey} (full : Bool) (h : told key) :
      Belated told (.called key (.saveYourself full))
  | saveYourselfPhase2 {key : ClientKey} (h : told key) :
      Belated told (.called key .saveYourselfPhase2)

/-- No request to cancel comes in, and nobody gets a turn with the user. -/
def Undisturbed : Session → List Step → Prop
  | _, [] => True
  | session, step :: steps => ¬Cancels session step.2 ∧ nextTurn? session step.2 = none
      ∧ Undisturbed (take step session).session steps

theorem nextTurn?_registered (hinv : LogoutInv session) {operation : Operation} {key : ClientKey}
    (h : nextTurn? session operation = some key) : key ∈ session.clients.keys := by
  cases operation with
  | report reporter event =>
      by_cases hreg : session.clients.contains reporter = true
      · cases event with
        | requestInteraction =>
            by_cases hempty : session.interacting.isEmpty = true
            · rw [nextTurn?, hreg] at h
              simp only [hempty, if_true, Bool.not_true, Bool.false_eq_true, if_false] at h
              exact Option.some.inj h ▸ KeyMap.contains_iff.mp hreg
            · simp [nextTurn?, hreg, hempty] at h
        | interactionDone cancel =>
            by_cases hhead : session.interacting.head? = some reporter
            · simp only [nextTurn?, hreg, hhead, if_true, Bool.not_true, Bool.false_eq_true,
                if_false] at h
              exact hinv.queue key (List.mem_of_mem_tail (List.mem_of_head? h))
            · simp [nextTurn?, hreg, hhead] at h
        | saveYourselfDone | disconnected =>
            by_cases hhead : session.interacting.head? = some reporter
            · simp only [nextTurn?, hreg, hhead, if_true, Bool.not_true, Bool.false_eq_true,
                if_false] at h
              exact hinv.queue key (List.mem_filter.mp (List.mem_of_head? h)).1
            · simp [nextTurn?, hreg, hhead] at h
        | savedState | requestPhase2 | requestLogout => simp [nextTurn?, hreg] at h
      · simp [nextTurn?, hreg] at h
  | _ => exact absurd h (by simp [nextTurn?])

/-- A step after completion cancels the logout, or it leaves the logout completed and does
nothing besides passing a turn on or stopping a client. -/
theorem finishedStep (hinv : LogoutInv session) (hphase : session.phase = .shutdown)
    (hfin : session.finished = true) (step : Step) :
    (Cancels session step.2 ∧ Effect.phaseChanged .running ∈ (take step session).effects)
    ∨ (¬Cancels session step.2
      ∧ (take step session).effects = asides session step.2
      ∧ (take step session).session.phase = .shutdown
      ∧ (take step session).session.finished = true
      ∧ ∀ key ∈ (take step session).session.clients.keys, key ∈ session.clients.keys) := by
  obtain ⟨w, operation⟩ := step
  -- what completes or resumes a logout finds it unfinished
  have hopen : session.finished ≠ false := by simp [hfin]
  cases barrierStep w hinv hphase operation with
  | cancels h hturn =>
      refine .inl ⟨h, ?_⟩
      show Effect.phaseChanged .running ∈ (perform w operation session).effects
      rw [cancelShutdown_eq hturn]
      exact List.mem_cons_self
  | holds next hnext hkept hturn =>
      refine .inr ⟨hkept, ?_⟩
      show (perform w operation session).effects = _ ∧ _
      rw [show take (w, operation) session = perform w operation session from rfl, hturn]
      exact ⟨rfl, hnext.phase.trans hphase, hnext.finished.trans hfin,
        fun key hkey => ((hnext.clients key).mp hkey).1⟩
  | forces _ hunfinished _ => exact absurd hunfinished hopen
  | completes _ _ hunfinished _ _ _ => exact absurd hunfinished hopen
  | resumes _ _ hunfinished _ _ _ => exact absurd hunfinished hopen

/-- Beside a logout, only a turn with the user is belated. -/
theorem belated_asides (hinv : LogoutInv session) {operation : Operation}
    (htold : ∀ key ∈ session.clients.keys, told key) :
    (∀ effect ∈ asides session operation, ¬Belated told effect) ↔
      nextTurn? session operation = none := by
  constructor
  · intro h
    by_contra hsome
    obtain ⟨key, hkey⟩ := Option.ne_none_iff_exists'.mp hsome
    have haside : asides session operation = [.called key .interact] := by
      cases operation with
      | stop _ => exact absurd hkey (by simp [nextTurn?])
      | _ => simp [asides, hkey, callEach]
    refine h (.called key .interact) (by simp [haside]) (.interact ?_)
    exact htold key (nextTurn?_registered hinv hkey)
  · intro hnone effect he hbelated
    have hdie : ∃ key, effect = .called key .die := by
      cases operation with
      | stop key =>
          by_cases hreg : session.clients.contains key = true
          · exact ⟨key, by simpa [asides, hreg] using he⟩
          · simp [asides, hreg] at he
      | _ => simp [asides, hnone, callEach] at he
    obtain ⟨key, rfl⟩ := hdie
    cases hbelated

/-- Nothing belated is heard as long as nobody cancels or gets a turn, and no longer. -/
theorem silent_iff_undisturbed (hinv : LogoutInv session) (hphase : session.phase = .shutdown)
    (hfin : session.finished = true) (htold : ∀ key ∈ session.clients.keys, told key)
    (later : List Step) :
    (∀ effect ∈ (run session later).effects, ¬Belated told effect) ↔ Undisturbed session later := by
  induction later generalizing session with
  | nil => simp [Undisturbed]
  | cons step later ih =>
      have hnext := logoutInv_step hinv step
      simp only [run_cons, Turn.andThen_effects, List.forall_mem_append, Undisturbed]
      rcases finishedStep hinv hphase hfin step with ⟨hcancels, hmem⟩ | ⟨hkept, haside, hp, hf, hcl⟩
      · constructor
        · intro hcase
          obtain ⟨hsilent, _⟩ := hcase
          exact absurd (.phaseChanged .running) (hsilent _ hmem)
        · intro hcase
          obtain ⟨hkept, _⟩ := hcase
          exact absurd hcancels hkept
      · have hrest := ih hnext hp hf fun key hkey => htold key (hcl key hkey)
        rw [haside, belated_asides hinv htold]
        exact ⟨fun ⟨hturn, hs⟩ => ⟨hkept, hturn, hrest.mp hs⟩,
          fun ⟨_, hturn, hu⟩ => ⟨hturn, hrest.mpr hu⟩⟩

/-- Whoever is there when a logout is completed has been told to die. -/
theorem told_of_completed (hinv : LogoutInv session)
    (hdone : .shutdownCompleted ∈ (take step session).effects) :
    (take step session).session.phase = .shutdown ∧ (take step session).session.finished = true
      ∧ ∀ key ∈ (take step session).session.clients.keys,
        .called key .die ∈ (take step session).effects := by
  obtain ⟨w, operation⟩ := step
  by_cases hphase : session.phase = .shutdown
  · have hcompletes := (completes_perform hinv hphase hdone).1
    refine ⟨hcompletes.phase, hcompletes.after, ?_⟩
    intro key hkey
    rw [← List.count_pos_iff, hcompletes.calls key, if_pos hkey]
    exact Nat.zero_lt_one
  · -- a logout that begins with nobody there is completed by the same step
    have hcalm := hinv.isCalm hphase
    cases calmStep w hcalm operation with
    | begins _ hturn =>
        have hbegins : Begins session (perform w operation session) := by
          rw [hturn]
          exact begins_beginShutdown hcalm
        obtain ⟨hfin, hkeys, _, _⟩ := hbegins.completes hdone
        refine ⟨hbegins.phase, hfin, ?_⟩
        intro key hkey
        rw [hbegins.clients, hkeys] at hkey
        exact absurd hkey (by simp)
    | stays _ heffects _ => exact absurd (heffects _ hdone) (by simp [Effect.isCalm, Effect.isStartup])

/-- **Completion is final exactly as long as nobody cancels or gets a turn with the user.** -/
theorem final_iff_undisturbed (h : Reachable session)
    (hdone : .shutdownCompleted ∈ (take step session).effects) (later : List Step) :
    (∀ effect ∈ (run (take step session).session later).effects,
        ¬Belated (fun key => .called key .die ∈ (take step session).effects) effect)
      ↔ Undisturbed (take step session).session later := by
  have hinv := logoutInv_reachable h
  obtain ⟨hphase, hfin, htold⟩ := told_of_completed hinv hdone
  exact silent_iff_undisturbed (logoutInv_step hinv step) hphase hfin htold later

/-- The save of the first client of a pair, which completes a logout. -/
def lastSave : Step := (still, .report 1 .saveYourselfDone)

theorem final_iff_undisturbed_pair :
    Reachable (run pair (pairRound.take 3)).session
    ∧ .shutdownCompleted ∈ (take lastSave (run pair (pairRound.take 3)).session).effects
    ∧ ∀ effect ∈ (run (take lastSave (run pair (pairRound.take 3)).session).session
        [(still, .beginShutdown), (still, .forceShutdown), (still, .report 1 .saveYourselfDone),
          (still, .report 1 .disconnected), (still, .stop 2)]).effects,
        ¬Belated (fun key =>
          .called key .die ∈ (take lastSave (run pair (pairRound.take 3)).session).effects)
          effect := by
  have hreach : Reachable (run pair (pairRound.take 3)).session := pair_reachable.run _
  have hdone : .shutdownCompleted ∈
      (take lastSave (run pair (pairRound.take 3)).session).effects := by decide
  refine ⟨hreach, hdone, (final_iff_undisturbed hreach hdone _).mpr ?_⟩
  refine ⟨?_, rfl, ?_, rfl, ?_, rfl, ?_, rfl, ?_, rfl, trivial⟩ <;> simp [Cancels]

/-- Completion is not final: a request to cancel that comes in after it begins another phase,
although everybody has been told to die. -/
theorem completion_not_final : ¬∀ (session : Session) (step : Step) (later : List Step),
    Reachable session → .shutdownCompleted ∈ (take step session).effects →
      ∀ effect ∈ (run (take step session).session later).effects,
        ¬Belated (fun key => .called key .die ∈ (take step session).effects) effect := by
  intro h
  have hsilent := h (run pair (pairRound.take 3)).session lastSave [(still, .cancelShutdown)]
    (pair_reachable.run _) (by decide)
  exact hsilent (.phaseChanged .running) (by decide) (.phaseChanged .running)

end Xsmp.Session
