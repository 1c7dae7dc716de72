import Xsmp.Proofs.Session.Logout

/-!
# What an operation does when there is no logout

It begins a logout, or it has nothing to do with one (`CalmStep`). In the latter
case nobody comes to be waited for, and no client hears of a logout.
-/

namespace Xsmp.Session

variable {w : Surroundings} {session : Session} {operation : Operation}

/-- A session in which no logout is going on. -/
structure IsCalm (session : Session) : Prop where
  phase : session.phase ≠ .shutdown
  saving : session.saving = []
  deferred : session.deferred = []
  started : session.phase2Started = false
  finished : session.finished = false
  queue : ∀ key ∈ session.interacting, key ∈ session.clients.keys

theorem LogoutInv.isCalm (h : LogoutInv session) (hphase : session.phase ≠ .shutdown) :
    IsCalm session := by
  obtain ⟨hsaving, hdef, hstarted, hfin⟩ := h.calm hphase
  exact ⟨hphase, hsaving, hdef, hstarted, hfin, h.queue⟩

theorem IsCalm.logoutInv (h : IsCalm session) : LogoutInv session where
  calm := fun _ => ⟨h.saving, h.deferred, h.started, h.finished⟩
  alone := fun hphase => absurd hphase h.phase
  saving := by simp [h.saving]
  deferred := by simp [h.deferred]
  queue := h.queue
  started := fun _ => h.saving
  waits := fun hphase => absurd hphase h.phase

theorem IsCalm.startsUp {turn : Turn} (h : IsCalm session) (hs : StartsUp session turn) :
    IsCalm turn.session := by
  have hphase := hs.phase h.phase
  obtain ⟨_, _, _, _, _, heq⟩ := hs.frame
  rw [heq] at hphase ⊢
  exact ⟨hphase, h.saving, h.deferred, h.started, h.finished, h.queue⟩

theorem IsCalm.checkBarrier (h : IsCalm session) :
    checkBarrier session = { session } := checkBarrier_of_inv h.logoutInv

/-- What an operation does when no logout is going on. -/
inductive CalmStep (w : Surroundings) (session : Session) (operation : Operation) : Prop
  /-- It begins a logout. -/
  | begins (h : operation = .beginShutdown
        ∨ ∃ key ∈ session.clients.keys, operation = .report key .requestLogout)
      (turn : perform w operation session = beginShutdown session)
  /-- It has nothing to do with one. -/
  | stays (h : IsCalm (perform w operation session).session)
      (effects : ∀ effect ∈ (perform w operation session).effects, effect.isCalm = true)
      (clients : ∀ key, key ∈ (perform w operation session).session.clients.keys ↔
        (key ∈ session.clients.keys ∧ operation ≠ .report key .disconnected)
          ∨ ∃ previousId id turn, operation = .register key previousId
            ∧ register w key previousId session = .ok (id, turn))

/-- An operation that is about phases and programs only. -/
theorem calmStep_startsUp (h : IsCalm session)
    (hreport : ∀ key event, operation ≠ .report key event)
    (hregister : ∀ key previousId, operation ≠ .register key previousId)
    (hs : StartsUp session (perform w operation session)) : CalmStep w session operation := by
  refine .stays (h.startsUp hs) ?_ ?_
  · exact fun effect he => Effect.isCalm_of_isStartup (hs.effects effect he)
  · intro key
    obtain ⟨_, _, _, _, _, heq⟩ := hs.frame
    rw [heq]
    simp [hreport, hregister]

/-- An operation that is neither a registration nor a goodbye and leaves the clients alone. -/
theorem calmStep_clients (hcalm : IsCalm (perform w operation session).session)
    (heffects : ∀ effect ∈ (perform w operation session).effects, effect.isCalm = true)
    (hgone : ∀ key ∈ session.clients.keys, operation ≠ .report key .disconnected)
    (hregister : ∀ key previousId, operation ≠ .register key previousId)
    (hclients : (perform w operation session).session.clients = session.clients) :
    CalmStep w session operation := by
  refine .stays hcalm heffects ?_
  intro key
  rw [hclients]
  constructor
  · exact fun hkey => .inl ⟨hkey, hgone key hkey⟩
  · intro hcase
    rcases hcase with ⟨hkey, _⟩ | ⟨previousId, _, _, heq, _⟩
    · exact hkey
    · exact absurd heq (hregister key previousId)

theorem calmStep_rest (h : IsCalm session)
    (hgone : ∀ key ∈ session.clients.keys, operation ≠ .report key .disconnected)
    (hregister : ∀ key previousId, operation ≠ .register key previousId)
    (hturn : perform w operation session = { session }) : CalmStep w session operation := by
  refine calmStep_clients ?_ ?_ hgone hregister ?_
  · rw [hturn]
    exact h
  · simp [hturn]
  · rw [hturn]

theorem IsCalm.queued (h : IsCalm session) {queue : List ClientKey}
    (hqueue : ∀ key ∈ queue, key ∈ session.clients.keys) :
    IsCalm { session with interacting := queue } :=
  ⟨h.phase, h.saving, h.deferred, h.started, h.finished, hqueue⟩

/-- Passing a turn on has nothing to do with a logout. -/
theorem isCalm_interact {clients : List ClientKey} :
    ∀ effect ∈ callEach clients .interact, effect.isCalm = true := by
  intro effect he
  obtain ⟨_, _, rfl⟩ := mem_callEach.mp he
  rfl

/-- Outside of a logout nobody owes anything that could be discharged. -/
theorem IsCalm.discharge (h : IsCalm session) (key : ClientKey) :
    discharge key session = session := by
  have hsaving := h.saving
  have hdef := h.deferred
  cases session
  simp_all [Session.discharge]

/-- An operation that does no more than pass turns on. -/
theorem calmStep_queue (h : IsCalm session)
    (hgone : ∀ key ∈ session.clients.keys, operation ≠ .report key .disconnected)
    (hregister : ∀ key previousId, operation ≠ .register key previousId)
    (queue granted : List ClientKey) (hqueue : ∀ key ∈ queue, key ∈ session.clients.keys)
    (hturn : perform w operation session =
      { session := { session with interacting := queue }, effects := callEach granted .interact }) :
    CalmStep w session operation := by
  refine calmStep_clients ?_ ?_ hgone hregister ?_
  · rw [hturn]
    exact h.queued hqueue
  · rw [hturn]
    exact isCalm_interact
  · rw [hturn]

theorem calmStep_register (h : IsCalm session) (key : ClientKey) (previousId : Option String) :
    CalmStep w session (.register key previousId) := by
  cases hreg : register w key previousId session with
  | error error =>
      have hturn : perform w (.register key previousId) session = { session } := by
        simp [perform, hreg, Except.map]
      refine .stays ?_ ?_ ?_
      · rw [hturn]
        exact h
      · simp [hturn]
      · intro k
        rw [hturn]
        constructor
        · exact fun hk => .inl ⟨hk, by simp⟩
        · intro hcase
          rcases hcase with ⟨hk, _⟩ | ⟨previousId', id, turn, heq, hok⟩
          · exact hk
          · obtain ⟨rfl, rfl⟩ := Operation.register.inj heq
            rw [hreg] at hok
            exact absurd hok (by simp)
  | ok result =>
      -- the client is entered and told, and what follows is a matter of phases and programs
      obtain ⟨id, turn⟩ := result
      have hturn : perform w (.register key previousId) session = turn := by
        simp [perform, hreg, Except.map]
      obtain ⟨ids, resumed, rest, heffects, hs⟩ := startsUp_register hreg
      have hinsert : ∀ k, k ∈ (session.clients.insert key id).keys ↔
          k = key ∨ k ∈ session.clients.keys := fun k => KeyMap.mem_keys_insert _ _ _ _
      have hcalm : IsCalm { session with ids, clients := session.clients.insert key id } :=
        ⟨h.phase, h.saving, h.deferred, h.started, h.finished,
          fun k hk => (hinsert k).mpr (.inr (h.queue k hk))⟩
      refine .stays ?_ ?_ ?_
      · have hnext := hcalm.startsUp hs
        rw [hturn]
        exact hnext
      · rw [hturn, heffects]
        intro effect he
        rcases List.mem_cons.mp he with rfl | he
        · rfl
        · exact Effect.isCalm_of_isStartup (hs.effects effect he)
      · intro k
        obtain ⟨_, _, _, _, _, hframe⟩ := hs.frame
        rw [hturn, hframe]
        show k ∈ (session.clients.insert key id).keys ↔ _
        rw [hinsert]
        constructor
        · intro hcase
          rcases hcase with rfl | hk
          · exact .inr ⟨previousId, id, turn, rfl, hreg⟩
          · exact .inl ⟨hk, by simp⟩
        · intro hcase
          rcases hcase with ⟨hk, _⟩ | ⟨_, _, _, heq, _⟩
          · exact .inr hk
          · exact .inl (Operation.register.inj heq).1.symm

theorem calmStep_report {key : ClientKey} {event : ClientEvent} (h : IsCalm session)
    (hreg : key ∈ session.clients.keys) : CalmStep w session (.report key event) := by
  have hcontains : session.clients.contains key = true := KeyMap.contains_iff.mpr hreg
  cases event with
  | savedState => exact calmStep_rest h (by simp) (by simp) (by simp [perform, report, hcontains])
  | requestLogout =>
      exact .begins (.inr ⟨key, hreg, rfl⟩) (by simp [perform, report, hcontains])
  | requestPhase2 =>
      refine calmStep_rest h (by simp) (by simp) ?_
      simp [perform, report, hcontains, h.saving]
  | requestInteraction =>
      have hqueue : ∀ k ∈ session.interacting ++ [key], k ∈ session.clients.keys := by
        intro k hk
        rcases List.mem_append.mp hk with hk | hk
        · exact h.queue k hk
        · rw [List.mem_singleton.mp hk]
          exact hreg
      have hgrant := grantTurn_eq
        { session with interacting := session.interacting ++ [key] } hqueue
      by_cases hempty : session.interacting.isEmpty = true
      · refine calmStep_queue h (by simp) (by simp) _ _ hqueue (Eq.trans ?_ hgrant)
        simp only [perform, report, hcontains, hempty]
        rfl
      · refine calmStep_queue h (by simp) (by simp) _ [] hqueue ?_
        simp only [perform, report, hcontains, hempty]
        rfl
  | interactionDone cancel =>
      by_cases hhead : session.interacting.head? = some key
      · have hqueue : ∀ k ∈ session.interacting.tail, k ∈ session.clients.keys :=
          fun k hk => h.queue k (List.mem_of_mem_tail hk)
        have hgrant := grantTurn_eq
          { session with interacting := session.interacting.tail } hqueue
        refine calmStep_queue h (by simp) (by simp) _ _ hqueue (Eq.trans ?_ hgrant)
        -- a request to cancel fails here, so the turn passes on in either case
        cases cancel <;> simp [perform, report, hcontains, hhead, cancelShutdown, h.phase]
      · exact calmStep_rest h (by simp) (by simp) (by simp [perform, report, hcontains, hhead])
  | saveYourselfDone =>
      -- a report that nobody waits for still takes the client out of the queue for the user
      have hqueue : ∀ k ∈ session.interacting.filter (· != key), k ∈ session.clients.keys :=
        fun k hk => h.queue k (List.mem_filter.mp hk).1
      have hbar := (h.queued hqueue).checkBarrier
      have hdrop := dropInteractor_eq session key (fun k hk _ => h.queue k hk)
      refine calmStep_queue h (by simp) (by simp) _ (if session.interacting.head? = some key
        then (session.interacting.filter (· != key)).head? else none).toList hqueue ?_
      simp only [perform, report, hcontains, h.discharge, hdrop, Turn.andThen, hbar]
      simp
  | disconnected =>
      have hstay : ∀ k ∈ session.interacting, k ≠ key → k ∈ (session.clients.erase key).keys :=
        fun k hk hne => (KeyMap.mem_keys_erase _ _ _).mpr ⟨h.queue k hk, hne⟩
      have hcalm : IsCalm { session with
          clients := session.clients.erase key
          interacting := session.interacting.filter (· != key)
          stopped := session.stopped.filter (· != key) } := by
        refine ⟨h.phase, h.saving, h.deferred, h.started, h.finished, ?_⟩
        intro k hk
        obtain ⟨hmem, hne⟩ := List.mem_filter.mp hk
        exact hstay k hmem (by simpa using hne)
      have hturn : perform w (.report key .disconnected) session = disconnect w key session := by
        simp [perform, report, hcontains]
      have hdrop := dropInteractor_eq
        { session with clients := session.clients.erase key } key hstay
      have hbar := hcalm.checkBarrier
      simp only [disconnect, h.discharge, hdrop, Turn.andThen, hbar] at hturn
      refine .stays ?_ ?_ ?_
      · rw [hturn]
        exact hcalm
      · rw [hturn]
        intro effect he
        rcases List.mem_append.mp he with he | he
        · exact isCalm_interact effect he
        · -- the client may want to be restarted
          rw [List.append_nil] at he
          split at he
          · rw [List.mem_singleton.mp he]
            rfl
          · exact absurd he (by simp)
      · intro k
        rw [hturn]
        simp [KeyMap.mem_keys_erase, ne_comm]

/-- **An operation that finds no logout begins one or has nothing to do with one.** -/
theorem calmStep (w : Surroundings) (h : IsCalm session) (operation : Operation) :
    CalmStep w session operation := by
  cases operation with
  | start => exact calmStep_startsUp h (by simp) (by simp) (startsUp_start session)
  | timeout => exact calmStep_startsUp h (by simp) (by simp) (startsUp_timeout session)
  | programExited pid =>
      exact calmStep_startsUp h (by simp) (by simp) (startsUp_programExited pid session)
  | register key previousId => exact calmStep_register h key previousId
  | report key event =>
      by_cases hreg : key ∈ session.clients.keys
      · exact calmStep_report h hreg
      · have hcontains : session.clients.contains key = false := KeyMap.contains_eq_false.mpr hreg
        refine calmStep_rest h ?_ (by simp) (by simp [perform, report, hcontains])
        intro k hk heq
        exact hreg ((Operation.report.inj heq).1 ▸ hk)
  | beginShutdown => exact .begins (.inl rfl) rfl
  | forceShutdown =>
      exact calmStep_rest h (by simp) (by simp) (by simp [perform, forceShutdown, h.phase])
  | cancelShutdown =>
      exact calmStep_rest h (by simp) (by simp) (by simp [perform, cancelShutdown, h.phase])
  | checkpoint =>
      have hturn : perform w .checkpoint session =
          { session, effects := callEach session.clients.keys .saveState } := by
        simp [perform, checkpoint, h.phase]
      refine calmStep_clients ?_ ?_ (by simp) (by simp) ?_
      · rw [hturn]
        exact h
      · rw [hturn]
        intro effect he
        obtain ⟨_, _, rfl⟩ := mem_callEach.mp he
        rfl
      · rw [hturn]
  | stop key =>
      by_cases hreg : session.clients.contains key = true
      · have hturn : perform w (.stop key) session =
            { session := { session with stopped := session.stopped.filter (· != key) ++ [key] }
              effects := [.called key .die] } := by
          simp [perform, stop, hreg]
        refine calmStep_clients ?_ ?_ (by simp) (by simp) ?_
        · rw [hturn]
          exact ⟨h.phase, h.saving, h.deferred, h.started, h.finished, h.queue⟩
        · rw [hturn]
          intro effect he
          rw [List.mem_singleton.mp he]
          rfl
        · rw [hturn]
      · exact calmStep_rest h (by simp) (by simp) (by simp [perform, stop, hreg])

end Xsmp.Session
