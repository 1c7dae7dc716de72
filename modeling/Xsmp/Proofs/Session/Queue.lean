import Xsmp.Proofs.Session.Unmoved

/-!
# The queue for turns with the user

Clients ask for a turn with the user and wait for it in a queue. It moves in four
ways: somebody joins it, the turn at its head is over, somebody leaves it for good,
and a logout that is cancelled clears it. `QueueStep` says once, for every operation,
what the queue is afterwards and whose turn begins.
-/

namespace Xsmp

/-- The client whose turn with the user begins. -/
def Effect.interactor? : Effect → Option ClientKey
  | .called key .interact => some key
  | _ => none

namespace Session

variable {w : Surroundings} {session : Session} {operation : Operation} {key : ClientKey}

/-- The clients whose turns begin. -/
def interactions (effects : List Effect) : List ClientKey :=
  effects.filterMap Effect.interactor?

@[simp] theorem interactions_append (effects more : List Effect) :
    interactions (effects ++ more) = interactions effects ++ interactions more :=
  List.filterMap_append

theorem interactions_interact (clients : List ClientKey) :
    interactions (callEach clients .interact) = clients := by
  rw [interactions, callEach, List.filterMap_map]
  exact List.filterMap_some

theorem interactions_callEach (clients : List ClientKey) {call : ClientCall}
    (h : call ≠ .interact) : interactions (callEach clients call) = [] := by
  refine List.filterMap_eq_nil_iff.mpr fun effect he => ?_
  obtain ⟨key, _, rfl⟩ := mem_callEach.mp he
  cases call with
  | interact => exact absurd rfl h
  | _ => rfl

theorem interactions_startsUp {effects : List Effect}
    (h : ∀ effect ∈ effects, effect.isStartup = true) : interactions effects = [] := by
  refine List.filterMap_eq_nil_iff.mpr fun effect he => ?_
  have hstartup := h effect he
  cases effect with
  | called key call => exact absurd hstartup (by simp [Effect.isStartup])
  | _ => rfl

/-! ## Turns that leave the queue alone -/

/-- Nobody joins or leaves the queue, and nobody's turn begins. -/
structure Steady (session : Session) (turn : Turn) : Prop where
  queue : turn.session.interacting = session.interacting
  turns : interactions turn.effects = []

theorem steady_rest (session : Session) : Steady session { session } := ⟨rfl, rfl⟩

theorem steady_startsUp {turn : Turn} (h : StartsUp session turn) : Steady session turn := by
  refine ⟨?_, interactions_startsUp h.effects⟩
  obtain ⟨_, _, _, _, _, heq⟩ := h.frame
  rw [heq]

theorem steady_finish (session : Session) : Steady session (finish session) := by
  refine ⟨rfl, ?_⟩
  rw [finish, interactions_append, interactions_callEach _ (by simp)]
  rfl

theorem steady_checkBarrier (session : Session) : Steady session (checkBarrier session) := by
  rcases checkBarrier_cases session with ⟨heq, _⟩ | ⟨_, _, _, _, heq⟩ | ⟨_, _, _, _, _, heq⟩
  · rw [heq]
    exact steady_rest session
  · rw [heq]
    exact steady_finish session
  · rw [heq]
    exact ⟨rfl, interactions_callEach _ (by simp)⟩

theorem steady_beginShutdown (session : Session) : Steady session (beginShutdown session) := by
  by_cases hphase : session.phase = .shutdown
  · rw [beginShutdown, if_pos hphase]
    exact steady_rest session
  · rcases beginShutdown_cases hphase with ⟨_, heq⟩ | ⟨_, heq⟩
    · rw [heq]
      exact ⟨rfl, rfl⟩
    · rw [heq]
      exact ⟨rfl, interactions_callEach _ (by simp)⟩

/-! ## What an operation does to the queue -/

/-- The queue after an operation that cancels no logout. -/
def queueAfter (session : Session) : Operation → List ClientKey
  | .report key event =>
    if !session.clients.contains key then session.interacting
    else match event with
      | .requestInteraction => session.interacting ++ [key]
      | .interactionDone _ =>
        if session.interacting.head? = some key then session.interacting.tail
        else session.interacting
      | .saveYourselfDone | .disconnected => session.interacting.filter (· != key)
      | .savedState | .requestPhase2 | .requestLogout => session.interacting
  | _ => session.interacting

/-- What an operation does to the queue. -/
inductive QueueStep (w : Surroundings) (session : Session) (operation : Operation) : Prop
  /-- It cancels a logout. -/
  | cancels (h : Cancels session operation)
      (turn : cancelShutdown session = .ok (perform w operation session))
  /-- The queue moves, or not. -/
  | moves (kept : ¬(session.phase = .shutdown ∧ Cancels session operation))
      (queue : (perform w operation session).session.interacting = queueAfter session operation)
      (turns : interactions (perform w operation session).effects =
        (nextTurn? session operation).toList)

/-- An operation that is not about turns. -/
theorem queueStep_steady (hkept : ¬Cancels session operation)
    (hqueue : queueAfter session operation = session.interacting)
    (hnext : nextTurn? session operation = none)
    (h : Steady session (perform w operation session)) : QueueStep w session operation :=
  .moves (fun hcase => hkept hcase.2) (by rw [h.queue, hqueue]) (by rw [h.turns, hnext]; rfl)

theorem not_cancels_report {event : ClientEvent} (h : event ≠ .interactionDone true) :
    ¬Cancels session (.report key event) := by
  rintro (heq | ⟨_, heq, _⟩)
  · exact absurd heq (by simp)
  · exact h (Operation.report.inj heq).2

theorem queueStep_asks (hinv : LogoutInv session) (hregistered : key ∈ session.clients.keys) :
    QueueStep w session (.report key .requestInteraction) := by
  have hreg : session.clients.contains key = true := KeyMap.contains_iff.mpr hregistered
  by_cases hempty : session.interacting = []
  · -- whoever finds the queue empty has its turn at once
    have hturn : perform w (.report key .requestInteraction) session =
        grantTurn { session with interacting := session.interacting ++ [key] } := by
      simp [perform, report, hreg, hempty]
    have hgrant := grantTurn_eq { session with interacting := session.interacting ++ [key] } (by
      intro k hk
      rcases List.mem_append.mp hk with hk | hk
      · exact hinv.queue k hk
      · exact List.mem_singleton.mp hk ▸ hregistered)
    refine .moves (fun hcase => not_cancels_report (by simp) hcase.2) ?_ ?_
    · rw [hturn, hgrant]
      simp [queueAfter, hreg]
    · rw [hturn, hgrant, interactions_interact]
      simp [nextTurn?, hreg, hempty]
  · have hturn : perform w (.report key .requestInteraction) session =
        { session := { session with interacting := session.interacting ++ [key] } } := by
      simp [perform, report, hreg, hempty]
    refine .moves (fun hcase => not_cancels_report (by simp) hcase.2) ?_ ?_
    · rw [hturn]
      simp [queueAfter, hreg]
    · rw [hturn]
      simp [nextTurn?, hreg, hempty, interactions]

theorem queueStep_done (hinv : LogoutInv session) (hregistered : key ∈ session.clients.keys)
    (cancel : Bool) : QueueStep w session (.report key (.interactionDone cancel)) := by
  have hreg : session.clients.contains key = true := KeyMap.contains_iff.mpr hregistered
  rcases perform_done_cases hregistered cancel with
    ⟨hhead, hturn⟩ | ⟨hhead, rfl, _, hturn⟩ | ⟨hhead, hcancel, hturn⟩
  · refine .moves ?_ ?_ ?_
    · rintro ⟨_, heq | ⟨other, heq, _, hother⟩⟩
      · exact absurd heq (by simp)
      · exact hhead ((Operation.report.inj heq).1 ▸ hother)
    · rw [hturn]
      simp [queueAfter, hreg, hhead]
    · rw [hturn]
      simp [nextTurn?, hreg, hhead, interactions]
  · exact .cancels (.inr ⟨key, rfl, hregistered, hhead⟩) hturn
  · have hgrant := grantTurn_eq { session with interacting := session.interacting.tail }
      fun k hk => hinv.queue k (List.mem_of_mem_tail hk)
    refine .moves ?_ ?_ ?_
    · rintro ⟨hphase, hcancels⟩
      cases cancel with
      | false => exact not_cancels_report (by simp) hcancels
      | true => exact hcancel ⟨rfl, hphase⟩
    · rw [hturn, hgrant]
      simp [queueAfter, hreg, hhead]
    · rw [hturn, hgrant, interactions_interact]
      simp [nextTurn?, hreg, hhead]

/-- A client leaves the queue, and what follows is not about turns. -/
theorem turns_leave {left : Session} {turn : Turn} {next : Session → Turn}
    (hturn : turn = (dropInteractor key left).andThen next)
    (hqueue : left.interacting = session.interacting)
    (hregistered : ∀ k ∈ left.interacting, k ≠ key → k ∈ left.clients.keys)
    (hnext : ∀ session, Steady session (next session)) :
    turn.session.interacting = session.interacting.filter (· != key)
      ∧ interactions turn.effects =
        (if session.interacting.head? = some key
          then (session.interacting.filter (· != key)).head? else none).toList := by
  rw [hturn, Turn.andThen_session, Turn.andThen_effects, interactions_append, (hnext _).queue,
    (hnext _).turns, dropInteractor_eq left key hregistered, hqueue, interactions_interact,
    List.append_nil]
  exact ⟨rfl, rfl⟩

theorem queueStep_saved (hinv : LogoutInv session) (hregistered : key ∈ session.clients.keys) :
    QueueStep w session (.report key .saveYourselfDone) := by
  have hreg : session.clients.contains key = true := KeyMap.contains_iff.mpr hregistered
  have hturn : perform w (.report key .saveYourselfDone) session =
      (dropInteractor key (discharge key session)).andThen checkBarrier := by
    simp [perform, report, hreg]
  obtain ⟨hqueue, hturns⟩ : _ = session.interacting.filter (· != key) ∧ _ :=
    turns_leave hturn rfl (fun k hk _ => hinv.queue k hk) steady_checkBarrier
  refine .moves (fun hcase => not_cancels_report (by simp) hcase.2) ?_ ?_
  · simpa [queueAfter, hreg] using hqueue
  · simpa [nextTurn?, hreg] using hturns

theorem turns_disconnect (hinv : LogoutInv session) (w : Surroundings) (key : ClientKey) :
    (disconnect w key session).session.interacting = session.interacting.filter (· != key)
      ∧ interactions (disconnect w key session).effects =
        (if session.interacting.head? = some key
          then (session.interacting.filter (· != key)).head? else none).toList := by
  unfold disconnect
  refine turns_leave (Eq.refl _) (Eq.refl session.interacting) ?_
    fun left => ⟨(steady_checkBarrier _).queue, ?_⟩
  · exact fun k hk hne => (KeyMap.mem_keys_erase _ _ _).mpr ⟨hinv.queue k hk, hne⟩
  · rw [Turn.andThen_effects, interactions_append, (steady_checkBarrier _).turns]
    -- the client may want to be restarted
    split <;> rfl

theorem queueStep_gone (hinv : LogoutInv session) (hregistered : key ∈ session.clients.keys) :
    QueueStep w session (.report key .disconnected) := by
  have hreg : session.clients.contains key = true := KeyMap.contains_iff.mpr hregistered
  have hturn : perform w (.report key .disconnected) session = disconnect w key session := by
    simp [perform, report, hreg]
  obtain ⟨hqueue, hturns⟩ := turns_disconnect hinv w key
  rw [← hturn] at hqueue hturns
  refine .moves (fun hcase => not_cancels_report (by simp) hcase.2) ?_ ?_
  · simpa [queueAfter, hreg] using hqueue
  · simpa [nextTurn?, hreg] using hturns

theorem queueStep_report (hinv : LogoutInv session) (key : ClientKey) (event : ClientEvent) :
    QueueStep w session (.report key event) := by
  by_cases hregistered : key ∈ session.clients.keys
  · have hreg : session.clients.contains key = true := KeyMap.contains_iff.mpr hregistered
    cases event with
    | requestInteraction => exact queueStep_asks hinv hregistered
    | interactionDone cancel => exact queueStep_done hinv hregistered cancel
    | saveYourselfDone => exact queueStep_saved hinv hregistered
    | disconnected => exact queueStep_gone hinv hregistered
    | savedState =>
        refine queueStep_steady (not_cancels_report (by simp)) (by simp [queueAfter])
          (by simp [nextTurn?]) ?_
        simp only [perform, report, hreg]
        exact steady_rest session
    | requestLogout =>
        refine queueStep_steady (not_cancels_report (by simp)) (by simp [queueAfter])
          (by simp [nextTurn?]) ?_
        simp only [perform, report, hreg]
        exact steady_beginShutdown session
    | requestPhase2 =>
        refine queueStep_steady (not_cancels_report (by simp)) (by simp [queueAfter])
          (by simp [nextTurn?]) ?_
        by_cases hsaving : session.saving.contains key = true
        · simp only [perform, report, hreg, hsaving]
          exact ⟨(steady_checkBarrier _).queue, (steady_checkBarrier _).turns⟩
        · simp only [perform, report, hreg, hsaving]
          exact steady_rest session
  · have hcontains : session.clients.contains key = false :=
      KeyMap.contains_eq_false.mpr hregistered
    refine .moves ?_ ?_ ?_
    · rintro ⟨_, heq | ⟨other, heq, hother, _⟩⟩
      · exact absurd heq (by simp)
      · exact hregistered ((Operation.report.inj heq).1 ▸ hother)
    · rw [perform_stranger hregistered]
      simp [queueAfter, hcontains]
    · rw [perform_stranger hregistered]
      simp [nextTurn?, hcontains, interactions]

theorem steady_register (key : ClientKey) (previousId : Option String) :
    Steady session (perform w (.register key previousId) session) := by
  cases hregister : register w key previousId session with
  | error e =>
      simp only [perform, hregister, Except.map]
      exact steady_rest session
  | ok made =>
      obtain ⟨ids, resumed, rest, heffects, hstartsUp⟩ := startsUp_register hregister
      have hsteady := steady_startsUp hstartsUp
      simp only [perform, hregister, Except.map]
      refine ⟨hsteady.queue, ?_⟩
      rw [heffects]
      exact hsteady.turns

/-- **What every operation does to the queue.** -/
theorem queueStep (w : Surroundings) (hinv : LogoutInv session) (operation : Operation) :
    QueueStep w session operation := by
  cases operation with
  | report key event => exact queueStep_report hinv key event
  | cancelShutdown =>
      by_cases hphase : session.phase = .shutdown
      · exact .cancels (.inl rfl) (by simp [perform, cancelShutdown, hphase])
      · refine .moves (fun hcase => hphase hcase.1) ?_ ?_
        · simp [perform, cancelShutdown, hphase, queueAfter]
        · simp [perform, cancelShutdown, hphase, nextTurn?, interactions]
  | start =>
      exact queueStep_steady (by simp [Cancels]) rfl rfl (steady_startsUp (startsUp_start session))
  | timeout =>
      exact queueStep_steady (by simp [Cancels]) rfl rfl
        (steady_startsUp (startsUp_timeout session))
  | register key previousId =>
      exact queueStep_steady (by simp [Cancels]) rfl rfl (steady_register key previousId)
  | programExited pid =>
      exact queueStep_steady (by simp [Cancels]) rfl rfl
        (steady_startsUp (startsUp_programExited pid session))
  | beginShutdown =>
      exact queueStep_steady (by simp [Cancels]) rfl rfl (steady_beginShutdown session)
  | forceShutdown =>
      refine queueStep_steady (by simp [Cancels]) rfl rfl ?_
      show Steady session (forceShutdown session)
      unfold forceShutdown
      split
      · exact steady_finish session
      · exact steady_rest session
  | checkpoint =>
      refine queueStep_steady (by simp [Cancels]) rfl rfl ?_
      by_cases hphase : session.phase = .shutdown
      · simp only [perform, checkpoint, hphase, if_true]
        exact steady_rest session
      · simp only [perform, checkpoint, hphase, if_false]
        exact ⟨rfl, interactions_callEach _ (by simp)⟩
  | stop key =>
      refine queueStep_steady (by simp [Cancels]) rfl rfl ?_
      by_cases hreg : session.clients.contains key = true
      · simp only [perform, stop, hreg, if_true]
        exact ⟨rfl, rfl⟩
      · simp only [perform, stop, hreg]
        exact steady_rest session

end Session

end Xsmp
