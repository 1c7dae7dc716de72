import Xsmp.Proofs.Session.Calm

/-!
# What a logout keeps track of, in every state

Every operation keeps `LogoutInv`. The three places where it could break are the
beginning of a logout, its cancellation, and the barrier, at which a logout that
is left with nobody to wait for is completed.
-/

namespace Xsmp.Session

variable {session : Session}

/-! ## Beginning and cancelling a logout -/

/-- Everybody who is registered owes a save and is asked for it. With nobody there, the
logout is over at once. -/
theorem beginShutdown_cases (h : session.phase ≠ .shutdown) :
    (session.clients.keys = [] ∧ beginShutdown session = {
        session := { session with
          phase := .shutdown, pending := [], deadline := none
          phase2Started := false, finished := true }
        effects := [.phaseChanged .shutdown, .shutdownCompleted] })
    ∨ (session.clients.keys ≠ [] ∧ beginShutdown session = {
        session := { session with
          phase := .shutdown, pending := [], deadline := none
          phase2Started := false, finished := false, saving := session.clients.keys }
        effects :=
          .phaseChanged .shutdown :: callEach session.clients.keys (.saveYourself false) }) := by
  have hempty : session.clients.isEmpty = true ↔ session.clients.keys = [] := by
    simp [KeyMap.isEmpty, KeyMap.keys]
  by_cases hkeys : session.clients.keys = []
  · refine .inl ⟨hkeys, ?_⟩
    simp [beginShutdown, h, setPhase, Turn.andThen, hempty, hkeys, finish, callEach]
  · refine .inr ⟨hkeys, ?_⟩
    simp [beginShutdown, h, setPhase, Turn.andThen, hempty, hkeys]

theorem phase_beginShutdown (hphase : session.phase ≠ .shutdown) :
    (beginShutdown session).session.phase = .shutdown := by
  rcases beginShutdown_cases hphase with ⟨_, heq⟩ | ⟨_, heq⟩
  · rw [heq]
  · rw [heq]

/-- Cancelling leaves no trace of the logout. -/
theorem cancelShutdown_eq {turn : Turn} (h : cancelShutdown session = .ok turn) :
    turn = {
      session := { session with
        phase := .running, saving := [], deferred := [], interacting := []
        phase2Started := false, finished := false }
      effects := .phaseChanged .running :: callEach session.clients.keys .shutdownCancelled } := by
  unfold cancelShutdown at h
  split at h
  · exact (Except.ok.inj h).symm
  · exact absurd h (by simp)

theorem isCalm_cancelShutdown {turn : Turn}
    (h : cancelShutdown session = .ok turn) : IsCalm turn.session := by
  rw [cancelShutdown_eq h]
  exact ⟨by simp, rfl, rfl, rfl, rfl, by simp⟩

/-! ## The invariant is kept -/

theorem logoutInv_beginShutdown (h : IsCalm session) :
    LogoutInv (beginShutdown session).session := by
  rcases beginShutdown_cases h.phase with ⟨_, heq⟩ | ⟨hkeys, heq⟩
  · rw [heq]
    exact {
      calm := fun hphase => absurd rfl hphase
      alone := fun _ => ⟨rfl, rfl⟩
      saving := by simp [h.saving]
      deferred := by simp [h.deferred]
      queue := h.queue
      started := fun _ => h.saving
      waits := fun _ hfin => absurd hfin (by simp) }
  · rw [heq]
    exact {
      calm := fun hphase => absurd rfl hphase
      alone := fun _ => ⟨rfl, rfl⟩
      saving := fun _ hkey => hkey
      deferred := by simp [h.deferred]
      queue := h.queue
      started := fun hstarted => absurd hstarted (by simp)
      waits := fun _ _ => .inl hkeys }

theorem Advances.saving_registered {next : Session} {operation : Operation}
    (h : Advances session operation next) (hinv : LogoutInv session) :
    ∀ key ∈ next.saving, key ∈ next.clients.keys := by
  intro key hkey
  obtain ⟨hmem, hdis, _⟩ := (h.saving key).mp hkey
  refine (h.clients key).mpr ⟨hinv.saving key hmem, ?_⟩
  intro heq
  subst heq
  simp [Operation.discharges] at hdis

theorem Advances.deferred_registered {next : Session} {operation : Operation}
    (h : Advances session operation next) (hinv : LogoutInv session) :
    ∀ key ∈ next.deferred, key ∈ next.clients.keys := by
  intro key hkey
  rcases (h.deferred key).mp hkey with ⟨hmem, hdis⟩ | ⟨hmem, heq⟩
  · refine (h.clients key).mpr ⟨hinv.deferred key hmem, ?_⟩
    intro heq
    subst heq
    simp [Operation.discharges] at hdis
  · exact (h.clients key).mpr ⟨hinv.saving key hmem, by rw [heq]; simp⟩

/-- Nobody comes to owe a save in the middle of a logout. -/
theorem Advances.saving_nil {next : Session} {operation : Operation}
    (h : Advances session operation next) (hnil : session.saving = []) : next.saving = [] := by
  refine List.eq_nil_iff_forall_not_mem.mpr fun key hkey => ?_
  have hmem := ((h.saving key).mp hkey).1
  rw [hnil] at hmem
  exact absurd hmem (by simp)

theorem logoutInv_advances {next : Session} {operation : Operation}
    (hinv : LogoutInv session) (hphase : session.phase = .shutdown)
    (h : Advances session operation next) : LogoutInv (checkBarrier next).session := by
  have hnext : next.phase = .shutdown := h.phase.trans hphase
  have halone : next.pending = [] ∧ next.deadline = none := by
    rw [h.pending, h.deadline]
    exact hinv.alone hphase
  have hsaving := h.saving_registered hinv
  have hdef := h.deferred_registered hinv
  have hstarted : next.phase2Started = true → next.saving = [] := by
    intro hs
    exact h.saving_nil (hinv.started (h.started ▸ hs))
  rcases checkBarrier_cases next with ⟨heq, hclosed⟩ | ⟨_, _, hnil, _, heq⟩
      | ⟨_, _, hnil, hsome, _, heq⟩
  · -- a barrier that stands has somebody behind it
    rw [heq]
    refine ⟨fun hp => absurd hnext hp, fun _ => halone, hsaving, hdef, h.queue, hstarted, ?_⟩
    intro _ hfin
    rcases hclosed with hc | hc | hc | hc
    · exact absurd hnext hc
    · rw [hfin] at hc
      exact absurd hc (by simp)
    · exact .inl hc
    · exact .inr hc
  · rw [heq]
    exact ⟨fun hp => absurd hnext hp, fun _ => halone, hsaving, hdef, h.queue, hstarted,
      fun _ hfin => absurd hfin (by simp [finish])⟩
  · rw [heq]
    exact ⟨fun hp => absurd hnext hp, fun _ => halone, hsaving, hdef, h.queue, fun _ => hnil,
      fun _ _ => .inr ⟨hsome, rfl⟩⟩

/-- **Every operation keeps what a logout keeps track of in order.** -/
theorem logoutInv_step (h : LogoutInv session) (step : Step) :
    LogoutInv (take step session).session := by
  obtain ⟨w, operation⟩ := step
  show LogoutInv (perform w operation session).session
  by_cases hphase : session.phase = .shutdown
  · cases logoutStep w h hphase operation with
    | cancels _ hturn => exact (isCalm_cancelShutdown hturn).logoutInv
    | forces _ _ hturn =>
        rw [hturn]
        exact ⟨fun hp => absurd hphase hp, fun _ => h.alone hphase, h.saving, h.deferred, h.queue,
          h.started, fun _ hfin => absurd hfin (by simp [finish])⟩
    | advances next hnext _ hturn =>
        rw [hturn]
        exact logoutInv_advances h hphase hnext
  · have hcalm := h.isCalm hphase
    cases calmStep w hcalm operation with
    | begins _ hturn =>
        rw [hturn]
        exact logoutInv_beginShutdown hcalm
    | stays hnext _ _ => exact hnext.logoutInv

theorem logoutInv_reachable (h : Reachable session) : LogoutInv session := by
  induction h with
  | init manifests ids name phaseTimeout => exact logoutInv_init manifests ids name phaseTimeout
  | tail step _ ih => exact logoutInv_step ih step

end Xsmp.Session
