import Xsmp.Proofs.Session.Startup

/-!
# What an operation does to a logout

Two sets and two flags carry a logout: the clients that still owe a save, the
ones that have put theirs off, whether those were asked again, and whether it is
all over. Six operations touch them. `LogoutInv` is what holds between those
parts, and `LogoutStep` says once what an operation that finds the session in
`shutdown` can do to them: it cancels the logout, cuts it short, or takes clients
off the two sets and checks whether anybody is left. So no later proof unfolds an
operation.
-/

namespace Xsmp.Session

variable {w : Surroundings} {session : Session} {operation : Operation}

/-! ## The invariant -/

/-- What a logout keeps track of. -/
structure LogoutInv (session : Session) : Prop where
  /-- Outside of a logout nobody is waited for. -/
  calm : session.phase ≠ .shutdown → session.saving = [] ∧ session.deferred = []
    ∧ session.phase2Started = false ∧ session.finished = false
  /-- During a logout no program is waited for. -/
  alone : session.phase = .shutdown → session.pending = [] ∧ session.deadline = none
  /-- Who owes a save is registered. -/
  saving : ∀ key ∈ session.saving, key ∈ session.clients.keys
  /-- Who has put off a save is registered. -/
  deferred : ∀ key ∈ session.deferred, key ∈ session.clients.keys
  /-- Who waits for the user is registered. -/
  queue : ∀ key ∈ session.interacting, key ∈ session.clients.keys
  /-- The deferred clients are asked again only when nobody else is left. -/
  started : session.phase2Started = true → session.saving = []
  /-- A logout that is not over waits for somebody who was asked. -/
  waits : session.phase = .shutdown → session.finished = false →
    session.saving ≠ [] ∨ (session.deferred ≠ [] ∧ session.phase2Started = true)

theorem logoutInv_init (manifests : List Manifest) (ids : ClientIds) (name : Option String)
    (phaseTimeout : Nat) : LogoutInv { new manifests ids with name, phaseTimeout } where
  calm := fun _ => ⟨rfl, rfl, rfl, rfl⟩
  alone := fun h => absurd h (by simp [new])
  saving := by simp [new]
  deferred := by simp [new]
  queue := by simp [new]
  started := fun _ => rfl
  waits := fun h => absurd h (by simp [new])

/-! ## Turns with the user -/

/-- The client whose turn with the user begins by an operation. -/
def nextTurn? (session : Session) : Operation → Option ClientKey
  | .report key event =>
    if !session.clients.contains key then none
    else match event with
      | .requestInteraction => if session.interacting.isEmpty then some key else none
      | .interactionDone _ =>
        if session.interacting.head? = some key then session.interacting.tail.head? else none
      | .saveYourselfDone | .disconnected =>
        if session.interacting.head? = some key
        then (session.interacting.filter (· != key)).head? else none
      | .savedState | .requestPhase2 | .requestLogout => none
  | _ => none

/-- The calls of an operation that have nothing to do with a logout: a turn with the user
passes on, or a client is stopped. -/
def asides (session : Session) : Operation → List Effect
  | .stop key => if session.clients.contains key then [.called key .die] else []
  | operation => callEach (nextTurn? session operation).toList .interact

theorem head?_filter_of_forall {queue : List ClientKey} {is : ClientKey → Bool}
    (h : ∀ key ∈ queue, is key = true) : queue.head?.filter is = queue.head? := by
  cases queue with
  | nil => rfl
  | cons key rest => simp [h key List.mem_cons_self]

/-- The head of a queue of registered clients has its turn. -/
theorem grantTurn_eq (session : Session)
    (h : ∀ key ∈ session.interacting, key ∈ session.clients.keys) :
    grantTurn session =
      { session, effects := callEach session.interacting.head?.toList .interact } := by
  have hall : ∀ key ∈ session.interacting, session.clients.contains key = true :=
    fun key hkey => KeyMap.contains_iff.mpr (h key hkey)
  rw [grantTurn, head?_filter_of_forall hall]

theorem dropInteractor_eq (session : Session) (key : ClientKey)
    (h : ∀ k ∈ session.interacting, k ≠ key → k ∈ session.clients.keys) :
    dropInteractor key session =
      { session := { session with interacting := session.interacting.filter (· != key) }
        effects := callEach (if session.interacting.head? = some key
          then (session.interacting.filter (· != key)).head? else none).toList .interact } := by
  rw [dropInteractor]
  split
  · refine grantTurn_eq _ ?_
    intro k hk
    obtain ⟨hmem, hne⟩ := List.mem_filter.mp hk
    exact h k hmem (by simpa using hne)
  · rfl

/-! ## The barrier -/

/-- The barrier holds, or everybody is done, or the deferred clients are asked again. -/
theorem checkBarrier_cases (session : Session) :
    (checkBarrier session = { session }
      ∧ (session.phase ≠ .shutdown ∨ session.finished = true ∨ session.saving ≠ []
        ∨ (session.deferred ≠ [] ∧ session.phase2Started = true)))
    ∨ (session.phase = .shutdown ∧ session.finished = false ∧ session.saving = []
      ∧ session.deferred = [] ∧ checkBarrier session = finish session)
    ∨ (session.phase = .shutdown ∧ session.finished = false ∧ session.saving = []
      ∧ session.deferred ≠ [] ∧ session.phase2Started = false
      ∧ checkBarrier session = {
          session := { session with phase2Started := true }
          effects := callEach (session.clients.keys.filter session.deferred.contains)
            .saveYourselfPhase2 }) := by
  by_cases hopen : session.phase = .shutdown ∧ ¬session.finished ∧ session.saving.isEmpty
  · obtain ⟨hphase, hfin, hsaving⟩ := hopen
    have hfin' : session.finished = false := by simpa using hfin
    have hsaving' : session.saving = [] := by simpa using hsaving
    rw [checkBarrier, if_pos ⟨hphase, hfin, hsaving⟩]
    by_cases hdef : session.deferred = []
    · exact .inr (.inl ⟨hphase, hfin', hsaving', hdef, by rw [if_pos (by simp [hdef])]⟩)
    · rw [if_neg (by simpa using hdef)]
      by_cases hstarted : session.phase2Started = true
      · exact .inl ⟨by rw [if_pos hstarted], .inr (.inr (.inr ⟨hdef, hstarted⟩))⟩
      · refine .inr (.inr ⟨hphase, hfin', hsaving', hdef, by simpa using hstarted, ?_⟩)
        rw [if_neg hstarted]
  · refine .inl ⟨by rw [checkBarrier, if_neg hopen], ?_⟩
    by_cases hphase : session.phase = .shutdown
    · by_cases hfin : session.finished = true
      · exact .inr (.inl hfin)
      · refine .inr (.inr (.inl fun hsaving => hopen ⟨hphase, hfin, ?_⟩))
        simp [hsaving]
    · exact .inl hphase

theorem checkBarrier_of_inv (h : LogoutInv session) : checkBarrier session = { session } := by
  rcases checkBarrier_cases session with ⟨heq, _⟩ | ⟨hphase, hfin, hsaving, hdef, _⟩
      | ⟨hphase, hfin, hsaving, _, hstarted, _⟩
  · exact heq
  · rcases h.waits hphase hfin with hw | ⟨hw, _⟩
    · exact absurd hsaving hw
    · exact absurd hdef hw
  · rcases h.waits hphase hfin with hw | ⟨_, hw⟩
    · exact absurd hsaving hw
    · rw [hstarted] at hw
      exact absurd hw (by simp)

/-! ## During a logout -/

/-- Whether an operation ends what a client owes: the client reports that its save is done,
or it is gone. -/
def Operation.discharges (key : ClientKey) : Operation → Bool
  | .report reporter .saveYourselfDone | .report reporter .disconnected => reporter == key
  | _ => false

theorem eq_of_discharges {key : ClientKey} (h : operation.discharges key = true) :
    operation = .report key .saveYourselfDone ∨ operation = .report key .disconnected := by
  cases operation with
  | report reporter event =>
      cases event with
      | saveYourselfDone => exact .inl (by rw [eq_of_beq h])
      | disconnected => exact .inr (by rw [eq_of_beq h])
      | _ => exact absurd h (by simp [Operation.discharges])
  | _ => exact absurd h (by simp [Operation.discharges])

/-- Whether an operation asks for a logout to be cancelled and will be heard: the request
comes from outside or from the client that has its turn with the user. -/
def Cancels (session : Session) (operation : Operation) : Prop :=
  operation = .cancelShutdown
    ∨ ∃ key, operation = .report key (.interactionDone true) ∧ key ∈ session.clients.keys
      ∧ session.interacting.head? = some key

/-- The session `next` is what an operation makes of a session during a logout, before
anybody looks whether the barrier still holds. -/
structure Advances (session : Session) (operation : Operation) (next : Session) : Prop where
  phase : next.phase = session.phase
  pending : next.pending = session.pending
  deadline : next.deadline = session.deadline
  started : next.phase2Started = session.phase2Started
  finished : next.finished = session.finished
  /-- Only a client that is gone is no longer registered. -/
  clients : ∀ key, key ∈ next.clients.keys ↔
    key ∈ session.clients.keys ∧ operation ≠ .report key .disconnected
  /-- A save is owed until it is discharged or put off. -/
  saving : ∀ key, key ∈ next.saving ↔ key ∈ session.saving
    ∧ operation.discharges key = false ∧ operation ≠ .report key .requestPhase2
  /-- A save that is owed can be put off, until it is discharged. -/
  deferred : ∀ key, key ∈ next.deferred ↔
    (key ∈ session.deferred ∧ operation.discharges key = false)
      ∨ (key ∈ session.saving ∧ operation = .report key .requestPhase2)
  queue : ∀ key ∈ next.interacting, key ∈ next.clients.keys

/-- What an operation that finds a session in `shutdown` does. -/
inductive LogoutStep (w : Surroundings) (session : Session) (operation : Operation) : Prop
  /-- It cancels the logout. -/
  | cancels (h : Cancels session operation)
      (turn : cancelShutdown session = .ok (perform w operation session))
  /-- It cuts the logout short. -/
  | forces (h : operation = .forceShutdown) (unfinished : session.finished = false)
      (turn : perform w operation session = finish session)
  /-- It changes who is waited for, and then the barrier is looked at. -/
  | advances (next : Session) (h : Advances session operation next)
      (kept : ¬Cancels session operation)
      (turn : perform w operation session =
        ({ session := next, effects := asides session operation } : Turn).andThen checkBarrier)

/-- Who waits for the user and who was stopped does not matter to the invariant. -/
theorem logoutInv_queue (h : LogoutInv session) (interacting stopped : List ClientKey)
    (hqueue : ∀ key ∈ interacting, key ∈ session.clients.keys) :
    LogoutInv { session with interacting, stopped } :=
  ⟨h.calm, h.alone, h.saving, h.deferred, hqueue, h.started, h.waits⟩

/-- An operation that discharges nobody and puts nothing off leaves the logout alone. -/
theorem logoutStep_quiet (hinv : LogoutInv session) (interacting stopped : List ClientKey)
    (hkept : ¬Cancels session operation)
    (hdis : ∀ key ∈ session.clients.keys, operation.discharges key = false)
    (hput : ∀ key ∈ session.saving, operation ≠ .report key .requestPhase2)
    (hqueue : ∀ key ∈ interacting, key ∈ session.clients.keys)
    (hturn : perform w operation session =
      { session := { session with interacting, stopped }, effects := asides session operation }) :
    LogoutStep w session operation := by
  have hstay : ∀ key ∈ session.clients.keys, operation ≠ .report key .disconnected := by
    intro key hkey heq
    have := hdis key hkey
    rw [heq] at this
    simp [Operation.discharges] at this
  -- the two sets stay as they are, which is what `Advances` says where nobody is discharged
  refine .advances { session with interacting, stopped } ?_ hkept ?_
  · refine ⟨rfl, rfl, rfl, rfl, rfl, ?_, ?_, ?_, hqueue⟩
    · exact fun key => ⟨fun h => ⟨h, hstay key h⟩, fun h => h.1⟩
    · exact fun key => ⟨fun h => ⟨h, hdis key (hinv.saving key h), hput key h⟩, fun h => h.1⟩
    · intro key
      refine ⟨fun h => .inl ⟨h, hdis key (hinv.deferred key h)⟩, ?_⟩
      intro hcase
      rcases hcase with h | h
      · exact h.1
      · exact absurd h.2 (hput key h.1)
  · rw [hturn]
    have hbar := checkBarrier_of_inv (logoutInv_queue hinv interacting stopped hqueue)
    simp [Turn.andThen, hbar]

theorem logoutStep_idle (hinv : LogoutInv session) (hkept : ¬Cancels session operation)
    (hdis : ∀ key ∈ session.clients.keys, operation.discharges key = false)
    (hput : ∀ key ∈ session.saving, operation ≠ .report key .requestPhase2)
    (haside : asides session operation = [])
    (hturn : perform w operation session = { session }) : LogoutStep w session operation := by
  refine logoutStep_quiet hinv session.interacting session.stopped hkept hdis hput hinv.queue ?_
  rw [hturn, haside]

/-- An operation that no client reports and that is no request to cancel. -/
theorem logoutStep_internal (hinv : LogoutInv session)
    (hreport : ∀ key event, operation ≠ .report key event)
    (hcancel : operation ≠ .cancelShutdown) (stopped : List ClientKey)
    (hturn : perform w operation session =
      { session := { session with stopped }, effects := asides session operation }) :
    LogoutStep w session operation := by
  refine logoutStep_quiet hinv session.interacting stopped ?_ ?_ ?_ hinv.queue hturn
  · intro hcase
    rcases hcase with heq | ⟨key, heq, _⟩
    · exact hcancel heq
    · exact hreport key _ heq
  · intro key _
    cases operation with
    | report reporter event => exact absurd rfl (hreport reporter event)
    | _ => rfl
  · exact fun key _ => hreport key _

theorem logoutStep_refused (hinv : LogoutInv session)
    (hreport : ∀ key event, operation ≠ .report key event)
    (hcancel : operation ≠ .cancelShutdown) (haside : asides session operation = [])
    (hturn : perform w operation session = { session }) : LogoutStep w session operation := by
  refine logoutStep_internal hinv hreport hcancel session.stopped ?_
  rw [hturn, haside]

/-- A report of somebody who is not registered is not heard. -/
theorem logoutStep_stranger {key : ClientKey} {event : ClientEvent} (hinv : LogoutInv session)
    (hreg : key ∉ session.clients.keys) : LogoutStep w session (.report key event) := by
  have hcontains : session.clients.contains key = false := KeyMap.contains_eq_false.mpr hreg
  refine logoutStep_idle hinv ?_ ?_ ?_ ?_ ?_
  · intro hcase
    rcases hcase with heq | ⟨k, heq, hk, _⟩
    · exact absurd heq (by simp)
    · exact hreg ((Operation.report.inj heq).1 ▸ hk)
  · intro k hk
    have hne : key ≠ k := fun heq => hreg (heq ▸ hk)
    cases event <;> simp [Operation.discharges, hne]
  · intro k hk heq
    exact hreg ((Operation.report.inj heq).1 ▸ hinv.saving k hk)
  · simp [asides, nextTurn?, hcontains, callEach]
  · simp [perform, report, hcontains]

theorem logoutStep_report {key : ClientKey} {event : ClientEvent} (hinv : LogoutInv session)
    (hphase : session.phase = .shutdown)
    (hreg : key ∈ session.clients.keys) : LogoutStep w session (.report key event) := by
  have hcontains : session.clients.contains key = true := KeyMap.contains_iff.mpr hreg
  cases event with
  | savedState =>
      refine logoutStep_idle hinv (by simp [Cancels]) (by simp [Operation.discharges]) (by simp) ?_ ?_
      · simp [asides, nextTurn?, callEach]
      · simp [perform, report, hcontains]
  | requestLogout =>
      refine logoutStep_idle hinv (by simp [Cancels]) (by simp [Operation.discharges]) (by simp) ?_ ?_
      · simp [asides, nextTurn?, callEach]
      · simp [perform, report, hcontains, beginShutdown, hphase]
  | requestInteraction =>
      refine logoutStep_quiet hinv (session.interacting ++ [key]) session.stopped
        (by simp [Cancels]) (by simp [Operation.discharges]) (by simp) ?_ ?_
      · intro k hk
        rcases List.mem_append.mp hk with hk | hk
        · exact hinv.queue k hk
        · rw [List.mem_singleton.mp hk]
          exact hreg
      · -- the turn is granted at once only if nobody else has it
        cases hqueue : session.interacting with
        | nil =>
            simp [perform, report, hcontains, hqueue, grantTurn, asides, nextTurn?, Option.filter]
        | cons head rest =>
            simp [perform, report, hcontains, hqueue, asides, nextTurn?, callEach]
  | interactionDone cancel =>
      by_cases hhead : session.interacting.head? = some key
      · cases cancel with
        | true =>
            refine .cancels (.inr ⟨key, rfl, hreg, hhead⟩) ?_
            simp [perform, report, hcontains, hhead, cancelShutdown, hphase]
        | false =>
            have htail : ∀ k ∈ session.interacting.tail, k ∈ session.clients.keys :=
              fun k hk => hinv.queue k (List.mem_of_mem_tail hk)
            refine logoutStep_quiet hinv session.interacting.tail session.stopped
              (by simp [Cancels]) (by simp [Operation.discharges]) (by simp) htail ?_
            have hgrant := grantTurn_eq
              { session with interacting := session.interacting.tail } htail
            simp [perform, report, hcontains, hhead, hgrant, asides, nextTurn?]
      · refine logoutStep_idle hinv ?_ (by simp [Operation.discharges]) (by simp) ?_ ?_
        · intro hcase
          rcases hcase with heq | ⟨k, heq, _, hk⟩
          · exact absurd heq (by simp)
          · exact hhead ((Operation.report.inj heq).1 ▸ hk)
        · simp [asides, nextTurn?, hhead, callEach]
        · simp [perform, report, hcontains, hhead]
  | requestPhase2 =>
      -- a client that owes no save has none to put off
      by_cases hsaving : key ∈ session.saving
      · refine .advances { session with
            saving := session.saving.filter (· != key)
            deferred := session.deferred.filter (· != key) ++ [key] } ?_ (by simp [Cancels]) ?_
        · refine ⟨rfl, rfl, rfl, rfl, rfl, by simp, ?_, ?_, hinv.queue⟩
          · intro k
            by_cases hk : k = key
            · simp [hk, Operation.discharges]
            · simp [hk, Ne.symm hk, Operation.discharges]
          · intro k
            by_cases hk : k = key
            · simp [hk, hsaving, Operation.discharges]
            · simp [hk, Ne.symm hk, Operation.discharges]
        · simp [perform, report, hcontains, hsaving, asides, nextTurn?, callEach, Turn.andThen]
      · refine logoutStep_idle hinv (by simp [Cancels]) (by simp [Operation.discharges]) ?_ ?_ ?_
        · intro k hk heq
          exact hsaving ((Operation.report.inj heq).1 ▸ hk)
        · simp [asides, nextTurn?, callEach]
        · simp [perform, report, hcontains, hsaving]
  | saveYourselfDone =>
      have hdrop := dropInteractor_eq (discharge key session) key
        (fun k hk _ => hinv.queue k hk)
      refine .advances { discharge key session with
        interacting := session.interacting.filter (· != key) } ?_ (by simp [Cancels]) ?_
      · refine ⟨rfl, rfl, rfl, rfl, rfl, by simp [discharge], ?_, ?_, ?_⟩
        · intro k
          simp [discharge, Operation.discharges, beq_eq_false_iff_ne, ne_comm]
        · intro k
          simp [discharge, Operation.discharges, beq_eq_false_iff_ne, ne_comm]
        · intro k hk
          exact hinv.queue k (List.mem_filter.mp hk).1
      · have hturn : perform w (.report key .saveYourselfDone) session =
            (dropInteractor key (discharge key session)).andThen checkBarrier := by
          simp [perform, report, hcontains]
        have haside : asides session (.report key .saveYourselfDone) =
            callEach (if session.interacting.head? = some key
              then (session.interacting.filter (· != key)).head? else none).toList .interact := by
          simp [asides, nextTurn?, hcontains]
        rw [hturn, haside, hdrop]
        rfl
  | disconnected =>
      -- the queue is cleaned before the next turn is granted, so its head is still registered
      have hstay : ∀ k ∈ session.interacting, k ≠ key →
          k ∈ (session.clients.erase key).keys :=
        fun k hk hne => (KeyMap.mem_keys_erase _ _ _).mpr ⟨hinv.queue k hk, hne⟩
      have hdrop := dropInteractor_eq
        { discharge key session with clients := session.clients.erase key } key hstay
      refine .advances { discharge key session with
        clients := session.clients.erase key
        interacting := session.interacting.filter (· != key)
        stopped := session.stopped.filter (· != key) } ?_ (by simp [Cancels]) ?_
      · refine ⟨rfl, rfl, rfl, rfl, rfl, ?_, ?_, ?_, ?_⟩
        · intro k
          simp [KeyMap.mem_keys_erase, ne_comm]
        · intro k
          simp [discharge, Operation.discharges, beq_eq_false_iff_ne, ne_comm]
        · intro k
          simp [discharge, Operation.discharges, beq_eq_false_iff_ne, ne_comm]
        · intro k hk
          obtain ⟨hmem, hne⟩ := List.mem_filter.mp hk
          exact hstay k hmem (by simpa using hne)
      · have hturn : perform w (.report key .disconnected) session = disconnect w key session := by
          simp [perform, report, hcontains]
        have haside : asides session (.report key .disconnected) =
            callEach (if session.interacting.head? = some key
              then (session.interacting.filter (· != key)).head? else none).toList .interact := by
          simp [asides, nextTurn?, hcontains]
        rw [hturn, haside, disconnect, hdrop]
        simp [Turn.andThen, discharge, hphase]

/-- Whether an operation finds nothing to do during a logout. -/
def Operation.isIdle : Operation → Bool
  | .start | .timeout | .register .. | .programExited _ | .beginShutdown | .checkpoint => true
  | .report .. | .forceShutdown | .cancelShutdown | .stop _ => false

theorem perform_idle (hinv : LogoutInv session) (hphase : session.phase = .shutdown)
    (hidle : operation.isIdle = true) : perform w operation session = { session } := by
  -- no program is waited for and there is no deadline, so programs and time do nothing here
  obtain ⟨hpending, hdeadline⟩ := hinv.alone hphase
  cases operation with
  | start => simp [perform, start, hphase]
  | timeout => simp [perform, timeout, hdeadline, isDue]
  | register key previousId => simp [perform, register, hphase, Except.map]
  | programExited pid => simp [perform, programExited, pending?, hpending]
  | beginShutdown => simp [perform, beginShutdown, hphase]
  | checkpoint => simp [perform, checkpoint, hphase]
  | report key event => exact absurd hidle (by simp [Operation.isIdle])
  | forceShutdown => exact absurd hidle (by simp [Operation.isIdle])
  | cancelShutdown => exact absurd hidle (by simp [Operation.isIdle])
  | stop key => exact absurd hidle (by simp [Operation.isIdle])

/-- **Every operation during a logout is of one of three kinds.** -/
theorem logoutStep (w : Surroundings) (hinv : LogoutInv session)
    (hphase : session.phase = .shutdown) (operation : Operation) :
    LogoutStep w session operation := by
  cases operation with
  | report key event =>
      by_cases hreg : key ∈ session.clients.keys
      · exact logoutStep_report hinv hphase hreg
      · exact logoutStep_stranger hinv hreg
  | cancelShutdown =>
      refine .cancels (.inl rfl) ?_
      simp [perform, cancelShutdown, hphase]
  | forceShutdown =>
      by_cases hfin : session.finished = true
      · refine logoutStep_refused hinv (by simp) (by simp) rfl ?_
        simp [perform, forceShutdown, hfin]
      · refine .forces rfl (by simpa using hfin) ?_
        simp [perform, forceShutdown, hphase, hfin]
  | stop key =>
      by_cases hreg : session.clients.contains key = true
      · refine logoutStep_internal hinv (by simp) (by simp)
          (session.stopped.filter (· != key) ++ [key]) ?_
        simp [perform, stop, hreg, asides]
      · refine logoutStep_refused hinv (by simp) (by simp) ?_ ?_
        · simp [asides, hreg]
        · simp [perform, stop, hreg]
  | start | timeout | register _ _ | programExited _ | beginShutdown | checkpoint =>
      exact logoutStep_refused hinv (by simp) (by simp) rfl (perform_idle hinv hphase rfl)

end Xsmp.Session
