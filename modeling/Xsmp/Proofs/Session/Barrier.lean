import Xsmp.Proofs.Session.Invariant

/-!
# Steps of a logout

Putting `LogoutStep` and the barrier together leaves five things that an
operation in the middle of a logout can do: cancel it, cut it short, leave the
barrier standing, complete the logout, or ask the deferred clients again. Each
fact below is one case analysis over those five: which calls are made, who is
still waited for, and which of the two flags is up.
-/

namespace Xsmp.Session

variable {w : Surroundings} {session : Session} {operation : Operation}

/-! ## The five cases -/

/-- What an operation in the middle of a logout does, with the barrier looked at. -/
inductive BarrierStep (w : Surroundings) (session : Session) (operation : Operation) : Prop
  | cancels (h : Cancels session operation)
      (turn : cancelShutdown session = .ok (perform w operation session))
  | forces (h : operation = .forceShutdown) (unfinished : session.finished = false)
      (turn : perform w operation session = finish session)
  /-- The barrier stands, or there is none any more. -/
  | holds (next : Session) (h : Advances session operation next)
      (kept : ¬Cancels session operation)
      (turn : perform w operation session =
        { session := next, effects := asides session operation })
  /-- Nobody is left. -/
  | completes (next : Session) (h : Advances session operation next)
      (unfinished : session.finished = false)
      (saving : next.saving = []) (deferred : next.deferred = [])
      (turn : perform w operation session =
        { session := { next with finished := true }
          effects := callEach (nextTurn? session operation).toList .interact
            ++ (callEach next.clients.keys .die ++ [.shutdownCompleted]) })
  /-- Only deferred clients are left. -/
  | resumes (next : Session) (h : Advances session operation next)
      (unfinished : session.finished = false)
      (unstarted : session.phase2Started = false) (saving : next.saving = [])
      (turn : perform w operation session =
        { session := { next with phase2Started := true }
          effects := asides session operation
            ++ callEach (next.clients.keys.filter next.deferred.contains) .saveYourselfPhase2 })

/-- A client has a save to do for the logout, put off or not. -/
def Owes (session : Session) (key : ClientKey) : Prop :=
  key ∈ session.saving ∨ key ∈ session.deferred

/-- A logout that is not over waits for somebody. -/
theorem LogoutInv.owes (h : LogoutInv session) (hphase : session.phase = .shutdown)
    (hfin : session.finished = false) : ∃ key, Owes session key := by
  rcases h.waits hphase hfin with hw | ⟨hw, _⟩
  · obtain ⟨key, hkey⟩ := List.exists_mem_of_ne_nil _ hw
    exact ⟨key, .inl hkey⟩
  · obtain ⟨key, hkey⟩ := List.exists_mem_of_ne_nil _ hw
    exact ⟨key, .inr hkey⟩

/-- A logout that was waiting is completed by discharging somebody it waited for. -/
theorem Advances.discharges_of_nil {next : Session} (h : Advances session operation next)
    (hinv : LogoutInv session) (hphase : session.phase = .shutdown)
    (hfin : session.finished = false) (hsaving : next.saving = []) (hdef : next.deferred = []) :
    ∃ key, operation.discharges key = true := by
  have hnone : ∀ key, key ∉ next.saving ∧ key ∉ next.deferred := by simp [hsaving, hdef]
  obtain ⟨key, hkey⟩ := hinv.owes hphase hfin
  refine ⟨key, ?_⟩
  by_contra hdis
  have hdis' : operation.discharges key = false := by simpa using hdis
  rcases hkey with hkey | hkey
  · by_cases hput : operation = .report key .requestPhase2
    · exact (hnone key).2 ((h.deferred key).mpr (.inr ⟨hkey, hput⟩))
    · exact (hnone key).1 ((h.saving key).mpr ⟨hkey, hdis', hput⟩)
  · exact (hnone key).2 ((h.deferred key).mpr (.inl ⟨hkey, hdis'⟩))

theorem barrierStep (w : Surroundings) (hinv : LogoutInv session)
    (hphase : session.phase = .shutdown) (operation : Operation) :
    BarrierStep w session operation := by
  cases logoutStep w hinv hphase operation with
  | cancels h hturn => exact .cancels h hturn
  | forces h hfin hturn => exact .forces h hfin hturn
  | advances next hnext hkept hturn =>
      rcases checkBarrier_cases next with ⟨heq, _⟩ | ⟨_, hfin, hsaving, hdef, heq⟩
          | ⟨_, hfin, hsaving, _, hstarted, heq⟩
      · refine .holds next hnext hkept ?_
        rw [hturn]
        simp [Turn.andThen, heq]
      · have hfin' : session.finished = false := hnext.finished ▸ hfin
        -- whoever is discharged here has not been stopped by the same operation
        obtain ⟨key, hdis⟩ := hnext.discharges_of_nil hinv hphase hfin' hsaving hdef
        have haside : asides session operation =
            callEach (nextTurn? session operation).toList .interact := by
          cases operation with
          | stop _ => exact absurd hdis (by simp [Operation.discharges])
          | _ => rfl
        refine .completes next hnext hfin' hsaving hdef ?_
        rw [hturn, haside]
        simp [Turn.andThen, heq, finish]
      · refine .resumes next hnext (hnext.finished ▸ hfin) (hnext.started ▸ hstarted) hsaving ?_
        rw [hturn]
        simp [Turn.andThen, heq]

/-! ## Who is waited for -/

/-- A step that does not end a logout changes who owes what as `Advances` says. -/
theorem advances_perform (hinv : LogoutInv session) (hphase : session.phase = .shutdown)
    (hstays : (perform w operation session).session.phase = .shutdown) :
    ∃ next, Advances session operation next
      ∧ (perform w operation session).session.saving = next.saving
      ∧ (perform w operation session).session.deferred = next.deferred
      ∧ (perform w operation session).session.clients = next.clients := by
  cases barrierStep w hinv hphase operation with
  | cancels _ hturn =>
      rw [cancelShutdown_eq hturn] at hstays
      exact absurd hstays (by simp)
  | forces heq _ hturn =>
      subst heq
      refine ⟨session, ⟨rfl, rfl, rfl, rfl, rfl, by simp, ?_, ?_, hinv.queue⟩, ?_⟩
      · simp [Operation.discharges]
      · simp [Operation.discharges]
      · rw [hturn]
        exact ⟨rfl, rfl, rfl⟩
  -- beyond what `Advances` says, the barrier touches the two flags only
  | holds next h _ hturn => exact ⟨next, h, by rw [hturn], by rw [hturn], by rw [hturn]⟩
  | completes next h _ _ _ hturn => exact ⟨next, h, by rw [hturn], by rw [hturn], by rw [hturn]⟩
  | resumes next h _ _ _ hturn => exact ⟨next, h, by rw [hturn], by rw [hturn], by rw [hturn]⟩

theorem mem_saving_perform (hinv : LogoutInv session) (hphase : session.phase = .shutdown)
    (hstays : (perform w operation session).session.phase = .shutdown) (key : ClientKey) :
    key ∈ (perform w operation session).session.saving ↔
      key ∈ session.saving ∧ operation.discharges key = false
        ∧ operation ≠ .report key .requestPhase2 := by
  obtain ⟨next, h, hsaving, _, _⟩ := advances_perform hinv hphase hstays
  rw [hsaving]
  exact h.saving key

theorem mem_deferred_perform (hinv : LogoutInv session) (hphase : session.phase = .shutdown)
    (hstays : (perform w operation session).session.phase = .shutdown) (key : ClientKey) :
    key ∈ (perform w operation session).session.deferred ↔
      (key ∈ session.deferred ∧ operation.discharges key = false)
        ∨ (key ∈ session.saving ∧ operation = .report key .requestPhase2) := by
  obtain ⟨next, h, _, hdef, _⟩ := advances_perform hinv hphase hstays
  rw [hdef]
  exact h.deferred key

/-- What is owed is owed until it is discharged; putting it off changes nothing. -/
theorem owes_perform (hinv : LogoutInv session) (hphase : session.phase = .shutdown)
    (hstays : (perform w operation session).session.phase = .shutdown) (key : ClientKey) :
    Owes (perform w operation session).session key ↔
      Owes session key ∧ operation.discharges key = false := by
  obtain ⟨next, h, hsaving, hdef, _⟩ := advances_perform hinv hphase hstays
  rw [Owes, Owes, hsaving, hdef, h.saving, h.deferred]
  constructor
  · intro hcase
    rcases hcase with ⟨hkey, hdis, _⟩ | ⟨hkey, hdis⟩ | ⟨hkey, heq⟩
    · exact ⟨.inl hkey, hdis⟩
    · exact ⟨.inr hkey, hdis⟩
    · exact ⟨.inl hkey, by rw [heq]; rfl⟩
  · intro hcase
    obtain ⟨hkey | hkey, hdis⟩ := hcase
    · by_cases heq : operation = .report key .requestPhase2
      · exact .inr (.inr ⟨hkey, heq⟩)
      · exact .inl ⟨hkey, hdis, heq⟩
    · exact .inr (.inl ⟨hkey, hdis⟩)

/-! ## Who is registered -/

/-- Only a registration adds a client, and only a goodbye takes one away. -/
theorem clients_perform (hinv : LogoutInv session) (key : ClientKey) :
    key ∈ (perform w operation session).session.clients.keys ↔
      (key ∈ session.clients.keys ∧ operation ≠ .report key .disconnected)
        ∨ ∃ previousId id turn, operation = .register key previousId
          ∧ register w key previousId session = .ok (id, turn) := by
  by_cases hphase : session.phase = .shutdown
  · have hrefused : ¬∃ previousId id turn, operation = .register key previousId
        ∧ register w key previousId session = .ok (id, turn) := by
      intro h
      obtain ⟨_, _, _, _, hok⟩ := h
      simp [register, hphase] at hok
    simp only [hrefused, or_false]
    cases barrierStep w hinv hphase operation with
    | cancels h hturn =>
        rw [cancelShutdown_eq hturn]
        refine ⟨fun hkey => ⟨hkey, ?_⟩, fun hkey => hkey.1⟩
        rcases h with rfl | ⟨_, rfl, _⟩ <;> simp
    | forces heq _ hturn =>
        rw [hturn, heq]
        exact ⟨fun hkey => ⟨hkey, by simp⟩, fun hkey => hkey.1⟩
    | holds next h _ hturn => rw [hturn]; exact h.clients key
    | completes next h _ _ _ hturn => rw [hturn]; exact h.clients key
    | resumes next h _ _ _ hturn => rw [hturn]; exact h.clients key
  · cases calmStep w (hinv.isCalm hphase) operation with
    | begins h hturn =>
        have hclients : (beginShutdown session).session.clients = session.clients := by
          rcases beginShutdown_cases hphase with ⟨_, heq⟩ | ⟨_, heq⟩ <;> rw [heq]
        rw [hturn, hclients]
        rcases h with rfl | ⟨_, _, rfl⟩ <;> simp
    | stays _ _ hclients => exact hclients key

/-! ## Which calls are made -/

/-- Calls beside a logout are turns with the user and the stopping of clients. -/
theorem mem_asides {effect : Effect} (h : effect ∈ asides session operation) :
    ∃ key, effect = .called key .interact ∨ effect = .called key .die := by
  unfold asides at h
  split at h
  · split at h
    · exact ⟨_, .inr (List.mem_singleton.mp h)⟩
    · exact absurd h (by simp)
  · obtain ⟨key, _, heq⟩ := mem_callEach.mp h
    exact ⟨key, .inl heq⟩

/-- An effect that is no turn with the user and stops nobody is not beside a logout. -/
theorem not_mem_asides {effect : Effect} (hinteract : ∀ key, effect ≠ .called key .interact)
    (hdie : ∀ key, effect ≠ .called key .die) : effect ∉ asides session operation := by
  intro h
  obtain ⟨key, heq | heq⟩ := mem_asides h
  · exact hinteract key heq
  · exact hdie key heq

/-- In the middle of a logout nobody is registered or asked for another save. -/
theorem calls_perform (hinv : LogoutInv session) (hphase : session.phase = .shutdown)
    {key : ClientKey} {call : ClientCall}
    (h : Effect.called key call ∈ (perform w operation session).effects) :
    call = .interact ∨ call = .saveYourselfPhase2 ∨ call = .shutdownCancelled ∨ call = .die := by
  have haside : Effect.called key call ∈ asides session operation →
      call = .interact ∨ call = .saveYourselfPhase2 ∨ call = .shutdownCancelled ∨ call = .die := by
    intro h
    obtain ⟨_, heq | heq⟩ := mem_asides h
    · exact .inl (Effect.called.inj heq).2
    · exact .inr (.inr (.inr (Effect.called.inj heq).2))
  have heach : ∀ {clients : List ClientKey} {other : ClientCall},
      Effect.called key call ∈ callEach clients other → call = other := by
    intro clients other h
    obtain ⟨_, _, heq⟩ := mem_callEach.mp h
    exact (Effect.called.inj heq).2
  cases barrierStep w hinv hphase operation with
  | cancels _ hturn =>
      rw [cancelShutdown_eq hturn] at h
      rcases List.mem_cons.mp h with heq | h
      · exact absurd heq (by simp)
      · exact .inr (.inr (.inl (heach h)))
  | forces _ _ hturn =>
      rw [hturn] at h
      rcases List.mem_append.mp h with h | h
      · exact .inr (.inr (.inr (heach h)))
      · exact absurd h (by simp)
  | holds _ _ _ hturn =>
      rw [hturn] at h
      exact haside h
  | completes _ _ _ _ _ hturn =>
      rw [hturn] at h
      rcases List.mem_append.mp h with h | h
      · exact .inl (heach h)
      · rcases List.mem_append.mp h with h | h
        · exact .inr (.inr (.inr (heach h)))
        · exact absurd h (by simp)
  | resumes _ _ _ _ _ hturn =>
      rw [hturn] at h
      rcases List.mem_append.mp h with h | h
      · exact haside h
      · exact .inr (.inl (heach h))

/-- Nobody is asked to save in the middle of a logout. -/
theorem not_asked_perform (hinv : LogoutInv session) (hphase : session.phase = .shutdown)
    (key : ClientKey) (full : Bool) :
    Effect.called key (.saveYourself full) ∉ (perform w operation session).effects := by
  intro h
  have hcall := calls_perform hinv hphase h
  simp at hcall

/-- The step that asks the deferred clients again. -/
structure AsksAgain (session : Session) (turn : Turn) : Prop where
  before : session.phase2Started = false
  after : turn.session.phase2Started = true
  phase : turn.session.phase = .shutdown
  /-- Nobody else is left. -/
  saving : turn.session.saving = []
  /-- All of them are asked, each of them once. -/
  calls : ∀ key, turn.effects.count (.called key .saveYourselfPhase2) =
    if key ∈ turn.session.deferred then 1 else 0

theorem asksAgain_perform (hinv : LogoutInv session) (hphase : session.phase = .shutdown)
    {key : ClientKey}
    (h : Effect.called key .saveYourselfPhase2 ∈ (perform w operation session).effects) :
    AsksAgain session (perform w operation session) := by
  have haside : ∀ k, Effect.called k .saveYourselfPhase2 ∉ asides session operation :=
    fun k => not_mem_asides (by simp) (by simp)
  cases barrierStep w hinv hphase operation with
  | cancels _ hturn =>
      rw [cancelShutdown_eq hturn] at h
      exact absurd h (by simp [mem_callEach])
  | forces _ _ hturn =>
      rw [hturn] at h
      exact absurd h (by simp [finish, mem_callEach])
  | holds _ _ _ hturn =>
      rw [hturn] at h
      exact absurd h (haside key)
  | completes _ _ _ _ _ hturn =>
      rw [hturn] at h
      exact absurd h (by simp [mem_callEach])
  | resumes next hnext hfin hstarted hsaving hturn =>
      rw [hturn]
      refine ⟨hstarted, rfl, hnext.phase.trans hphase, hsaving, ?_⟩
      intro k
      -- whoever has put off a save is registered, so asking goes past nobody
      have hreg := hnext.deferred_registered hinv k
      have hnodup := next.clients.keys_nodup.filter next.deferred.contains
      rw [List.count_append, List.count_eq_zero_of_not_mem (haside k), Nat.zero_add,
        count_callEach hnodup k]
      have hiff : k ∈ next.clients.keys.filter next.deferred.contains ↔ k ∈ next.deferred := by
        simp only [List.mem_filter, List.contains_iff_mem]
        exact ⟨fun hk => hk.2, fun hk => ⟨hreg hk, hk⟩⟩
      simp only [hiff]

/-- The step that completes a logout. -/
structure Completes (session : Session) (turn : Turn) : Prop where
  before : session.finished = false
  after : turn.session.finished = true
  phase : turn.session.phase = .shutdown
  once : turn.effects.count .shutdownCompleted = 1
  /-- Everybody who is there is told to die, once. -/
  calls : ∀ key, turn.effects.count (.called key .die) =
    if key ∈ turn.session.clients.keys then 1 else 0

theorem completes_finish {session : Session} (hphase : session.phase = .shutdown)
    (hfin : session.finished = false) : Completes session (finish session) := by
  refine ⟨hfin, rfl, hphase, ?_, ?_⟩
  · have hnone : Effect.shutdownCompleted ∉ callEach session.clients.keys .die := by
      simp [mem_callEach]
    simp [finish, List.count_eq_zero_of_not_mem hnone]
  · intro key
    show (callEach session.clients.keys .die ++ [Effect.shutdownCompleted]).count _ = _
    rw [List.count_append, count_callEach session.clients.keys_nodup key .die]
    exact Nat.add_zero _

theorem completes_perform (hinv : LogoutInv session) (hphase : session.phase = .shutdown)
    (h : Effect.shutdownCompleted ∈ (perform w operation session).effects) :
    Completes session (perform w operation session)
      ∧ (operation ≠ .forceShutdown → ∀ key, ¬Owes (perform w operation session).session key) := by
  have haside : Effect.shutdownCompleted ∉ asides session operation :=
    not_mem_asides (by simp) (by simp)
  cases barrierStep w hinv hphase operation with
  | cancels _ hturn =>
      rw [cancelShutdown_eq hturn] at h
      exact absurd h (by simp [mem_callEach])
  | forces heq hfin hturn =>
      rw [hturn]
      exact ⟨completes_finish hphase hfin, fun hne => absurd heq hne⟩
  | holds _ _ _ hturn =>
      rw [hturn] at h
      exact absurd h haside
  | completes next hnext hfin hsaving hdef hturn =>
      have hdone := completes_finish (hnext.phase.trans hphase) (hnext.finished.trans hfin)
      rw [hturn]
      refine ⟨⟨hfin, rfl, hdone.phase, ?_, ?_⟩, fun _ key => by simp [Owes, hsaving, hdef]⟩
      · have hnone : Effect.shutdownCompleted ∉
            callEach (nextTurn? session operation).toList .interact := by
          simp [mem_callEach]
        rw [List.count_append, List.count_eq_zero_of_not_mem hnone, Nat.zero_add]
        exact hdone.once
      · intro key
        have hnone : Effect.called key .die ∉
            callEach (nextTurn? session operation).toList .interact := by
          simp [mem_callEach]
        rw [List.count_append, List.count_eq_zero_of_not_mem hnone, Nat.zero_add]
        exact hdone.calls key
  | resumes _ _ _ _ _ hturn =>
      rw [hturn] at h
      exact absurd h (by simp [mem_callEach, haside])

/-! ## The two flags -/

theorem phase2Started_perform (hinv : LogoutInv session) (hphase : session.phase = .shutdown)
    (hstays : (perform w operation session).session.phase = .shutdown)
    (h : session.phase2Started = true) :
    (perform w operation session).session.phase2Started = true := by
  cases barrierStep w hinv hphase operation with
  | cancels _ hturn =>
      rw [cancelShutdown_eq hturn] at hstays
      exact absurd hstays (by simp)
  | forces _ _ hturn =>
      rw [hturn]
      exact h
  | holds next hnext _ hturn =>
      rw [hturn]
      exact hnext.started.trans h
  | completes next hnext _ _ _ hturn =>
      rw [hturn]
      exact hnext.started.trans h
  | resumes _ _ _ _ _ hturn => rw [hturn]

theorem finished_perform (hinv : LogoutInv session) (hphase : session.phase = .shutdown)
    (hstays : (perform w operation session).session.phase = .shutdown)
    (h : session.finished = true) :
    (perform w operation session).session.finished = true := by
  cases barrierStep w hinv hphase operation with
  | cancels _ hturn =>
      rw [cancelShutdown_eq hturn] at hstays
      exact absurd hstays (by simp)
  | forces _ _ hturn => rw [hturn]; rfl
  | holds next hnext _ hturn =>
      rw [hturn]
      exact hnext.finished.trans h
  | completes _ _ _ _ _ hturn => rw [hturn]
  | resumes next hnext _ _ _ hturn =>
      rw [hturn]
      exact hnext.finished.trans h

/-- A logout is completed with word of it, and never without. -/
theorem completed_of_finished (hinv : LogoutInv session) (hphase : session.phase = .shutdown)
    (hbefore : session.finished = false)
    (hafter : (perform w operation session).session.finished = true) :
    Effect.shutdownCompleted ∈ (perform w operation session).effects := by
  cases barrierStep w hinv hphase operation with
  | cancels _ hturn =>
      rw [cancelShutdown_eq hturn] at hafter
      exact absurd hafter (by simp)
  | forces _ _ hturn =>
      rw [hturn]
      simp [finish]
  | holds next hnext _ hturn =>
      rw [hturn] at hafter
      exact absurd (hafter.symm.trans (hnext.finished.trans hbefore)) (by simp)
  | completes _ _ _ _ _ hturn =>
      rw [hturn]
      simp
  | resumes next hnext _ _ _ hturn =>
      rw [hturn] at hafter
      exact absurd (hafter.symm.trans (hnext.finished.trans hbefore)) (by simp)

end Xsmp.Session
