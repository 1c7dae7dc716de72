import Xsmp.Proofs.Session.Round
import Xsmp.Proofs.Session.Stopped

/-!
# Who a session keeps track of

Beside its clients a session keeps four lists of keys: who owes a save, who has put
one off, who was stopped, and who waits for the user. A key that stayed on one of
them after its client has gone would hold up a logout, or would get a turn with the
user that nobody ends. `Members` says that this does not happen: all four name
registered clients only, nobody both owes a save and has put it off, and outside of
a logout nothing is left of one.
-/

namespace Xsmp.Session

variable {w : Surroundings} {session : Session} {operation : Operation} {key : ClientKey}

/-! ## The invariant -/

/-- Everybody on a list of the session is one of its clients, and the lists of a logout are
those of a logout that is going on. -/
structure Members (session : Session) : Prop where
  /-- Who owes a save is registered. -/
  saving : ∀ key ∈ session.saving, key ∈ session.clients.keys
  /-- Who has put off a save is registered. -/
  deferred : ∀ key ∈ session.deferred, key ∈ session.clients.keys
  /-- Who was stopped is registered, as long as it has not gone. -/
  stopped : ∀ key ∈ session.stopped, key ∈ session.clients.keys
  /-- Who waits for the user is registered. -/
  interacting : ∀ key ∈ session.interacting, key ∈ session.clients.keys
  /-- Nobody owes a save who has put it off. -/
  apart : ∀ key ∈ session.saving, key ∉ session.deferred
  /-- Outside of a logout nothing is left of one. -/
  calm : session.phase ≠ .shutdown → session.saving = [] ∧ session.deferred = []
    ∧ session.phase2Started = false ∧ session.finished = false
  /-- The deferred clients are asked again only when nobody else is left. -/
  started : session.phase2Started = true → session.saving = []

theorem stopped_step (hinv : LogoutInv session)
    (h : ∀ key ∈ session.stopped, key ∈ session.clients.keys) :
    ∀ key ∈ (perform w operation session).session.stopped,
      key ∈ (perform w operation session).session.clients.keys := by
  intro key hkey
  refine (clients_perform hinv key).mpr (.inl ?_)
  rcases mem_stopped_perform.mp hkey with ⟨hmem, hstays⟩ | ⟨heq, hreg⟩
  · exact ⟨h key hmem, fun hgone => hstays hgone (h key hmem)⟩
  · exact ⟨hreg, by rw [heq]; simp⟩

/-- Putting a save off takes the client off the one list and puts it on the other. -/
theorem apart_step (hinv : LogoutInv session) (h : ∀ key ∈ session.saving, key ∉ session.deferred) :
    ∀ key ∈ (perform w operation session).session.saving,
      key ∉ (perform w operation session).session.deferred := by
  by_cases hafter : (perform w operation session).session.phase = .shutdown
  · by_cases hphase : session.phase = .shutdown
    · obtain ⟨next, hnext, hsaving, hdef, _⟩ := advances_perform hinv hphase hafter
      rw [hsaving, hdef]
      intro key hkey hmem
      obtain ⟨hkey, _, hput⟩ := (hnext.saving key).mp hkey
      rcases (hnext.deferred key).mp hmem with ⟨hmem, _⟩ | ⟨_, heq⟩
      · exact h key hkey hmem
      · exact hput heq
    · -- a logout begins with nobody having put off anything
      have hdef := (hinv.calm hphase).2.1
      cases calmStep w (hinv.isCalm hphase) operation with
      | begins _ hturn =>
          rw [hturn]
          rcases beginShutdown_cases hphase with ⟨_, heq⟩ | ⟨_, heq⟩
          · simp [heq, hdef]
          · simp [heq, hdef]
      | stays hcalm _ _ => exact absurd hafter hcalm.phase
  · have hnone := (logoutInv_step hinv (w, operation)).calm hafter
    rw [show (perform w operation session).session.saving = [] from hnone.1]
    simp

/-- What `Members` says beyond the invariant of a logout. -/
theorem stopped_apart_reachable (h : Reachable session) :
    (∀ key ∈ session.stopped, key ∈ session.clients.keys)
      ∧ ∀ key ∈ session.saving, key ∉ session.deferred := by
  induction h with
  | init => simp [new]
  | tail step h ih =>
      have hinv := logoutInv_reachable h
      exact ⟨stopped_step hinv ih.1, apart_step hinv ih.2⟩

/-- **Whoever a session keeps track of is one of its clients.** -/
theorem members_reachable (h : Reachable session) : Members session := by
  have hinv := logoutInv_reachable h
  obtain ⟨hstopped, hapart⟩ := stopped_apart_reachable h
  exact {
    saving := hinv.saving
    deferred := hinv.deferred
    stopped := hstopped
    interacting := hinv.queue
    apart := hapart
    calm := hinv.calm
    started := hinv.started }

/-- In the middle of a logout one client of a pair has put off its save and waits for the
user, and the other one, which still owes a save, was stopped. -/
def busyPair : Session :=
  (run pair [(still, .beginShutdown), (still, .report 1 .requestPhase2),
    (still, .report 1 .requestInteraction), (still, .stop 2)]).session

theorem members_busyPair : Reachable busyPair ∧ busyPair.saving = [2] ∧ busyPair.deferred = [1]
    ∧ busyPair.stopped = [2] ∧ busyPair.interacting = [1] ∧ Members busyPair := by
  have hreach : Reachable busyPair := pair_reachable.run _
  exact ⟨hreach, rfl, rfl, rfl, rfl, members_reachable hreach⟩

end Xsmp.Session
