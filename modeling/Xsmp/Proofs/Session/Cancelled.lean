import Xsmp.Proofs.Session.Finished
import Xsmp.Proofs.Session.Waiting

/-!
# A cancelled logout

Users change their minds, and the next logout has to go as if there had been none
before. Between its beginning and its cancellation a logout touches what it keeps
track of and the queue for the user, and nothing else (`LogoutOnly`): whoever
comes is refused, and no program is waited for. All of that is put back by the
cancellation, which is the only time that clients hear of one. So as long as no
client leaves and none is stopped, the session is afterwards what it was before.
-/

namespace Xsmp.Session

variable {w : Surroundings} {session : Session} {operation : Operation} {steps : List Step}
  {key : ClientKey}

/-! ## What a logout leaves alone -/

/-- Whether an operation leaves the clients as they are during a logout: it takes none away
and stops none. -/
def Operation.keepsClients : Operation → Bool
  | .report _ .disconnected | .stop _ => false
  | _ => true

theorem logoutOnly_report {event : ClientEvent} (hphase : session.phase = .shutdown)
    (hstays : event ≠ .disconnected)
    (hkept : ¬Cancels session (.report key event)) :
    LogoutOnly session (perform w (.report key event) session).session := by
  cases reportStep w session key event with
  | tends _ h => exact h.frame
  | resumes _ registered heq head _ =>
      subst heq
      exact absurd (.inr ⟨key, rfl, registered, head⟩) hkept
  | begins _ turn =>
      rw [turn, beginShutdown, if_pos hphase]
      exact .refl session
  | leaves _ heq _ => exact absurd heq hstays

/-- **In the middle of a logout only the logout and the queue for the user change**, as long as
no client leaves and none is stopped. -/
theorem logoutOnly_perform (hinv : LogoutInv session) (hphase : session.phase = .shutdown)
    (hclients : operation.keepsClients = true) (hkept : ¬Cancels session operation) :
    LogoutOnly session (perform w operation session).session := by
  cases operation with
  | report key event =>
      refine logoutOnly_report hphase ?_ hkept
      intro heq
      subst heq
      exact absurd hclients (by simp [Operation.keepsClients])
  | cancelShutdown => exact absurd (.inl rfl) hkept
  | forceShutdown => exact (tends_forceShutdown session).frame
  | stop key => exact absurd hclients (by simp [Operation.keepsClients])
  | start | timeout | register _ _ | programExited _ | beginShutdown | checkpoint =>
      rw [perform_idle hinv hphase rfl]
      exact .refl session

/-- No client hears that a logout is cancelled unless it is. -/
theorem not_cancelled_perform (hinv : LogoutInv session) (hphase : session.phase = .shutdown)
    (hkept : ¬Cancels session operation) :
    .called key .shutdownCancelled ∉ (perform w operation session).effects := by
  have haside : .called key .shutdownCancelled ∉ asides session operation :=
    not_mem_asides (by simp) (by simp)
  cases barrierStep w hinv hphase operation with
  | cancels h _ => exact absurd h hkept
  | forces _ _ hturn =>
      rw [hturn]
      simp [finish, mem_callEach]
  | holds _ _ _ hturn =>
      rw [hturn]
      exact haside
  | completes _ _ _ _ _ hturn =>
      rw [hturn]
      simp [mem_callEach]
  | resumes _ _ _ _ _ hturn =>
      rw [hturn]
      simp [mem_callEach, haside]

/-! ## From the beginning to the cancellation -/

/-- No step cancels the logout. -/
def Uncancelled : Session → List Step → Prop
  | _, [] => True
  | session, step :: steps =>
    ¬Cancels session step.2 ∧ Uncancelled (take step session).session steps

/-- What happens during a logout that is not cancelled changes the logout and the queue for the
user only, and no client hears of a cancellation. -/
theorem logoutOnly_run (hinv : LogoutInv session) (hphase : session.phase = .shutdown)
    (hclients : ∀ step ∈ steps, step.2.keepsClients = true) (hkept : Uncancelled session steps) :
    (run session steps).session.phase = .shutdown
      ∧ LogoutOnly session (run session steps).session
      ∧ ∀ key, .called key .shutdownCancelled ∉ (run session steps).effects := by
  induction steps generalizing session with
  | nil => exact ⟨hphase, .refl session, fun _ => List.not_mem_nil⟩
  | cons step steps ih =>
      obtain ⟨hstep, hrest⟩ := hkept
      have honly := logoutOnly_perform (w := step.1) hinv hphase
        (hclients step List.mem_cons_self) hstep
      have hnext := phase_perform (w := step.1) hinv hphase hstep
      obtain ⟨hend, hthen, hunheard⟩ := ih (logoutInv_step hinv step) hnext
        (fun later hlater => hclients later (List.mem_cons_of_mem step hlater)) hrest
      refine ⟨hend, honly.trans hthen, fun key hmem => ?_⟩
      rcases List.mem_append.mp hmem with hmem | hmem
      · exact not_cancelled_perform hinv hphase hstep hmem
      · exact hunheard key hmem

/-- A logout that begins by a request from outside, during which no client leaves and none is
stopped, and that the last step is the first to cancel. -/
inductive CancelledLogout (session : Session) : List Step → Prop
  | intro (w : Surroundings) (between : List Step) (last : Step)
      (clients : ∀ step ∈ between, step.2.keepsClients = true)
      (kept : Uncancelled (beginShutdown session).session between)
      (cancels : Cancels (run (beginShutdown session).session between).session last.2) :
      CancelledLogout session ((w, .beginShutdown) :: (between ++ [last]))

/-- A step that cancels a logout does so. -/
theorem cancelShutdown_of_cancels (hphase : session.phase = .shutdown)
    (h : Cancels session operation) :
    cancelShutdown session = .ok (perform w operation session) := by
  rcases h with rfl | ⟨key, rfl, hreg, hhead⟩
  · simp [perform, cancelShutdown, hphase]
  · rcases perform_done_cases (w := w) hreg true with ⟨hnot, _⟩ | ⟨_, _, _, hturn⟩ | ⟨_, hnot, _⟩
    · exact absurd hhead hnot
    · exact hturn
    · exact absurd ⟨rfl, hphase⟩ hnot

/-- Whatever a logout has changed of a session that ran, with nobody waiting for the user, is put
back by a cancellation. -/
theorem turn_of_cancelled {suspended : Session} {turn : Turn} (h : Reachable session)
    (hphase : session.phase = .running) (hqueue : session.interacting = [])
    (honly : LogoutOnly (beginShutdown session).session suspended)
    (hturn : cancelShutdown suspended = .ok turn) :
    turn = { session
             effects :=
               .phaseChanged .running :: callEach session.clients.keys .shutdownCancelled } := by
  have hcalm : session.phase ≠ .shutdown := by
    rw [hphase]
    decide
  obtain ⟨hsaving, hdeferred, hstarted, hfinished⟩ := (logoutInv_reachable h).calm hcalm
  obtain ⟨hpending, hdeadline⟩ := (settled_reachable h).rests (by rw [hphase]; decide)
  obtain ⟨_, _, _, _, _, rfl⟩ := honly
  rw [cancelShutdown_eq hturn]
  cases session
  subst hphase hqueue hsaving hdeferred hstarted hfinished hpending hdeadline
  rcases beginShutdown_cases hcalm with ⟨_, heq⟩ | ⟨_, heq⟩
  · rw [heq]
  · rw [heq]

/-- **A cancelled logout leaves no trace.** The session is what it was, and every client has
heard once that there will be no logout after all. -/
theorem cancelled_without_trace (h : Reachable session) (hphase : session.phase = .running)
    (hqueue : session.interacting = []) (hlogout : CancelledLogout session steps) :
    (run session steps).session = session
      ∧ ∀ key, (run session steps).effects.count (.called key .shutdownCancelled) =
          if key ∈ session.clients.keys then 1 else 0 := by
  cases hlogout with
  | intro w between last hclients hkept hcancels =>
      have hcalm : session.phase ≠ .shutdown := by
        rw [hphase]
        decide
      have hbegun := (logoutInv_reachable h).isCalm hcalm
      obtain ⟨hend, honly, hunheard⟩ := logoutOnly_run (logoutInv_beginShutdown hbegun)
        (phase_beginShutdown hcalm) hclients hkept
      have hlast := cancelShutdown_of_cancels (w := last.1) hend hcancels
      have hback := turn_of_cancelled h hphase hqueue honly hlast
      constructor
      · show (run (beginShutdown session).session (between ++ [last])).session = session
        rw [run_snoc_session, turnAt, take, hback]
      · intro key
        have hbegin : .called key .shutdownCancelled ∉ (beginShutdown session).effects := by
          rcases beginShutdown_cases hcalm with ⟨_, heq⟩ | ⟨_, heq⟩
          · simp [heq]
          · simp [heq, mem_callEach]
        show ((beginShutdown session).effects
          ++ (run (beginShutdown session).session (between ++ [last])).effects).count _ = _
        -- of all steps only the last one is heard of
        rw [run_snoc_effects, turnAt, take, hback, List.count_append, List.count_append,
          List.count_eq_zero_of_not_mem hbegin, List.count_eq_zero_of_not_mem (hunheard key),
          Nat.zero_add, Nat.zero_add, List.count_cons_of_ne (by simp)]
        exact count_callEach session.clients.keys_nodup key _

/-- One client of a pair puts off its save, asks for the user, and is asked to save again once the
other one is done; then the user has second thoughts. A third client is refused meanwhile. -/
def pairSecondThoughts : List Step :=
  [(still, .beginShutdown), (still, .report 1 .requestPhase2),
    (still, .report 1 .requestInteraction),
    (still, .register 3 none), (still, .checkpoint), (still, .report 2 .saveYourselfDone),
    (still, .report 1 (.interactionDone true))]

theorem cancelled_without_trace_pair : Reachable pair ∧ pair.phase = .running
    ∧ pair.interacting = [] ∧ CancelledLogout pair pairSecondThoughts
    ∧ (run pair (pairSecondThoughts.take 6)).session.phase2Started = true
    ∧ (run pair pairSecondThoughts).session = pair
    ∧ ∀ key, (run pair pairSecondThoughts).effects.count (.called key .shutdownCancelled) =
        if key ∈ pair.clients.keys then 1 else 0 := by
  have hlogout : CancelledLogout pair pairSecondThoughts := by
    refine .intro still (pairSecondThoughts.tail.take 5) (still, .report 1 (.interactionDone true))
      ?_ ?_ ?_
    · decide
    · refine ⟨?_, ?_, ?_, ?_, ?_, trivial⟩ <;> simp [Cancels]
    · exact .inr ⟨1, rfl, by decide, rfl⟩
  obtain ⟨hsession, hheard⟩ := cancelled_without_trace pair_reachable rfl rfl hlogout
  exact ⟨pair_reachable, rfl, rfl, hlogout, rfl, hsession, hheard⟩

end Xsmp.Session
