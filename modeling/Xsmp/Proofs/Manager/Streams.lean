import Xsmp.Proofs.Manager.Connections

/-!
# What is sent on one connection

Over a whole run, a client is told nothing at all, or that its registration is refused and
nothing else, or first the identifier that it is registered under and from then on nothing
that answers a registration. So what the session tells all of its clients never reaches one
that has not registered, and no client is answered twice.
-/

namespace Xsmp.Manager

open Session (broughtId)

variable {manager : Manager} {key : ClientKey} {step : Step} {turn : ManagerTurn}
  {messages more : List ManagerMessage} {id : String}

/-- The reply to a registration, and then no other answer to one. -/
def Greeted (id : String) (messages : List ManagerMessage) : Prop :=
  ∃ rest, messages = .registerClientReply id :: rest ∧ ∀ message ∈ rest, message.isAnswer = false

theorem Greeted.append (h : Greeted id messages)
    (hmore : ∀ message ∈ more, message.isAnswer = false) : Greeted id (messages ++ more) := by
  obtain ⟨rest, rfl, hrest⟩ := h
  refine ⟨rest ++ more, rfl, fun message hmem => ?_⟩
  rcases List.mem_append.mp hmem with hmem | hmem
  · exact hrest message hmem
  · exact hmore message hmem

/-- What may be sent on a connection from its beginning to any time. -/
inductive Stream : List ManagerMessage → Prop
  | silent : Stream []
  | refused (reason : String) : Stream [.registrationRefused reason]
  | registered (id : String) {messages : List ManagerMessage} (h : Greeted id messages) :
      Stream messages

/-! ## One event -/

/-- What a client has been told, and where its connection stands. -/
structure Told (manager : Manager) (key : ClientKey) (messages : List ManagerMessage) : Prop where
  shape : Stream messages
  ahead : ¬key ≤ manager.lastKey → messages = []
  waiting : key ∈ manager.handshakes.keys → messages = []
  registered : ∀ id, manager.session.clients.get? key = some id → Greeted id messages

/-- A connection that is closed has had what it gets. -/
theorem told_gone (hgone : Stands manager key .gone) (h : Stream messages) :
    Told manager key messages where
  shape := h
  ahead hahead := absurd hgone.given hahead
  waiting hwaits := absurd (hgone.waits.mp hwaits) (by simp)
  registered id hid := absurd (hid.symm.trans hgone.client) (by simp [Standing.id?])

/-- What is sent to a client that an event leaves alone answers no registration. -/
theorem Told.stays (h : Told manager key messages) (hreach : Reachable manager)
    (hstays : Undisturbed key manager turn) :
    Told turn.manager key (messages ++ said key turn.actions) := by
  obtain ⟨_, hbooks⟩ := reachable_books hreach
  have hledger := ledger_reachable hreach
  cases hclient : manager.session.clients.get? key with
  | none =>
      -- a client that is not registered hears nothing
      have hstranger : key ∉ manager.session.clients.keys := by
        rw [← KeyMap.get?_isSome, hclient]
        simp
      rw [hstays.silent (hbooks.saves?_none hstranger), List.append_nil]
      refine ⟨h.shape, fun hahead => h.ahead ?_, fun hwaits => h.waiting ?_, fun id hid => ?_⟩
      · exact fun hgiven => hahead (hstays.given.mpr hgiven)
      · exact hstays.waits.mp hwaits
      · exact h.registered id (hstays.client ▸ hid)
  | some id =>
      have hgreeted := (h.registered id hclient).append hstays.unanswered
      have hregistered : key ∈ manager.session.clients.keys := by
        rw [← KeyMap.get?_isSome, hclient]
        rfl
      have hopen : key ∈ manager.connections := (hledger.opened key).mpr (.inr hregistered)
      refine ⟨.registered id hgreeted, fun hahead => ?_, fun hwaits => ?_,
        fun other hother => ?_⟩
      · exact absurd (hstays.given.mpr (hledger.bound key hopen)) hahead
      · exact absurd hregistered (hledger.apart key (hstays.waits.mp hwaits))
      · rw [hstays.client, hclient] at hother
        exact Option.some.inj hother ▸ hgreeted

/-- **What is sent on a connection by one event goes on what was sent before.** -/
theorem told_step (hreach : Reachable manager) (h : Told manager key messages) (step : Step) :
    Told (take step manager).manager key (messages ++ said key (take step manager).actions) := by
  cases hreach.fate step key with
  | stays hstays _ _ _ => exact h.stays hreach hstays
  | arrives _ new after silent =>
      -- nothing was sent to a key that was not given yet
      have hnothing : messages = [] := h.ahead (new ▸ Nat.not_succ_le_self _)
      rw [silent, hnothing]
      refine ⟨.silent, fun _ => rfl, fun _ => rfl, fun id hid => ?_⟩
      exact absurd (hid.symm.trans after.client) (by simp [Standing.id?])
  | registers previousId id _ waits _ after told _ =>
      have hgreeted : Greeted id (said key (take step manager).actions) := by
        refine ⟨_, told, fun message hmem => ?_⟩
        split at hmem
        · exact absurd hmem List.not_mem_nil
        · rw [List.mem_singleton.mp hmem]
          exact Participant.saveMessage_isAnswer .local
      rw [h.waiting waits, List.nil_append]
      refine ⟨.registered id hgreeted, fun hahead => absurd after.given hahead, fun hwaits => ?_,
        fun other hother => ?_⟩
      · exact absurd (after.waits.mp hwaits) (by simp)
      · obtain rfl : id = other := Option.some.inj (after.client.symm.trans hother)
        exact hgreeted
  | refused message reason _ waits _ after told _ =>
      rw [h.waiting waits, told, List.nil_append]
      exact told_gone after (.refused reason)
  | dropped _ _ waits after silent _ =>
      rw [h.waiting waits, silent, List.append_nil]
      exact told_gone after .silent
  | leaves _ registered after unanswered _ =>
      obtain ⟨id, hid⟩ := Option.isSome_iff_exists.mp (KeyMap.get?_isSome.mpr registered)
      exact told_gone after (.registered id ((h.registered id hid).append unanswered))

/-! ## Runs -/

theorem told_run (hreach : Reachable manager) (h : Told manager key messages)
    (steps : List Step) :
    Told (handleEach manager steps).manager key
      (messages ++ said key (handleEach manager steps).actions) := by
  induction steps generalizing manager messages with
  | nil =>
      rw [handleEach, said_nil, List.append_nil]
      exact h
  | cons step steps ih =>
      have hrest := ih (hreach.tail step) (told_step hreach h step)
      rw [handleEach, ManagerTurn.andThen_actions, said_append, ← List.append_assoc]
      exact hrest

/-- Nobody is told anything when the session is started. -/
theorem told_start (key : ClientKey) (w : Surroundings) (fresh : Manager)
    (hnobody : fresh.session.clients = .empty) :
    Told (start w fresh).manager key (said key (start w fresh).actions) := by
  have hstarts := Session.startsUp_start (w := fresh.surroundings w) fresh.session
  have hnothing : said key (start w fresh).actions = [] := by
    refine said_relayAll_of_uncalled (fun call hmem => ?_) _
    exact absurd (hstarts.effects _ hmem) (by simp [Effect.isStartup])
  rw [hnothing]
  refine ⟨.silent, fun _ => rfl, fun _ => rfl, fun id hid => ?_⟩
  rw [start_session, (Session.keepsRegister_startsUp hstarts).clients, hnobody] at hid
  exact absurd hid (by simp [KeyMap.empty, KeyMap.get?])

/-! ## The first message -/

/-- A client that waits is refused or registered by its first message, and is told so. -/
structure FirstMessage (manager : Manager) (key : ClientKey) (w : Surroundings)
    (message : ClientMessage) : Prop where
  refused : (∃ reason, said key (handle w (.message key message) manager).actions =
      [.registrationRefused reason]) ↔
    (∀ previousId, message ≠ .registerClient previousId) ∨ manager.session.phase = .shutdown
      ∨ ∃ previousId id holder, message = .registerClient previousId
        ∧ broughtId previousId = some id ∧ manager.session.clients.get? holder = some id
  taken : (∃ id, (handle w (.message key message) manager).manager.session.clients.get? key =
      some id) ↔
    ¬∃ reason, said key (handle w (.message key message) manager).actions =
      [.registrationRefused reason]

theorem refuses_iff {session : Session} {message : ClientMessage} :
    (∃ reason, Refuses session message reason) ↔
      (∀ previousId, message ≠ .registerClient previousId) ∨ session.phase = .shutdown
        ∨ ∃ previousId id holder, message = .registerClient previousId
          ∧ broughtId previousId = some id ∧ session.clients.get? holder = some id := by
  constructor
  · rintro ⟨reason, hrefuses⟩
    cases hrefuses with
    | unregistered h => exact .inl h
    | shuttingDown _ h => exact .inr (.inl h)
    | duplicate _ brought holder held => exact .inr (.inr ⟨_, _, holder, rfl, brought, held⟩)
  · intro h
    rcases refuses_or_admits session message with hrefuses | ⟨previousId, rfl, hadmits⟩
    · exact hrefuses
    · rcases h with h | h | ⟨brought, id, holder, heq, hid, hheld⟩
      · exact absurd rfl (h previousId)
      · exact absurd h hadmits.1
      · obtain rfl := ClientMessage.registerClient.inj heq
        exact absurd hheld (hadmits.2 id hid holder)

theorem firstMessage (hreach : Reachable manager) (hwaits : key ∈ manager.handshakes.keys)
    (w : Surroundings) (message : ClientMessage) : FirstMessage manager key w message := by
  cases hreach.fate (w, .message key message) key with
  | stays _ _ _ unheard => exact absurd hwaits (unheard message rfl)
  | arrives heq _ _ _ => exact absurd heq (by simp)
  | registers previousId id heq _ admitted after told _ =>
      obtain rfl := (ManagerEvent.message.inj heq).2
      have hnot : ¬∃ reason, said key
          (handle w (.message key (.registerClient previousId)) manager).actions =
            [.registrationRefused reason] := by
        rintro ⟨reason, hsaid⟩
        exact absurd (told.symm.trans hsaid) (by simp)
      refine ⟨iff_of_false hnot ?_, iff_of_true ⟨id, after.client⟩ hnot⟩
      rw [← refuses_iff]
      exact fun ⟨reason, hrefuses⟩ => hrefuses.not_admits admitted
  | refused said reason heq _ hrefuses after told _ =>
      obtain rfl := (ManagerEvent.message.inj heq).2
      refine ⟨iff_of_true ⟨reason, told⟩ (refuses_iff.mp ⟨reason, hrefuses⟩), ?_⟩
      refine iff_of_false (fun ⟨id, hid⟩ => ?_) (not_not_intro ⟨reason, told⟩)
      exact absurd (hid.symm.trans after.client) (by simp [Standing.id?])
  | dropped _ heq _ _ _ _ => exact absurd rfl (heq message)
  | leaves _ registered _ _ _ =>
      exact absurd registered ((ledger_reachable hreach).apart key hwaits)

/-- What the step sends by which a client comes to be registered. -/
theorem said_registering (hreach : Reachable manager) {step : Step}
    (hbefore : manager.session.clients.get? key = none)
    (hafter : (take step manager).manager.session.clients.get? key = some id) :
    ∃ previousId, step.2 = .message key (.registerClient previousId)
      ∧ key ∈ manager.handshakes.keys
      ∧ said key (take step manager).actions = .registerClientReply id ::
        if (broughtId previousId).isSome then [] else [.saveYourself .local false .none false] := by
  cases hreach.fate step key with
  | stays hstays _ _ _ =>
      rw [hstays.client, hbefore] at hafter
      exact absurd hafter (by simp)
  | registers previousId other heq waits _ after told _ =>
      obtain rfl : other = id := Option.some.inj (after.client.symm.trans hafter)
      exact ⟨previousId, heq, waits, told⟩
  | arrives _ _ after _ => exact absurd (hafter.symm.trans after.client) (by simp [Standing.id?])
  | refused _ _ _ _ _ after _ _ =>
      exact absurd (hafter.symm.trans after.client) (by simp [Standing.id?])
  | dropped _ _ _ after _ _ =>
      exact absurd (hafter.symm.trans after.client) (by simp [Standing.id?])
  | leaves _ _ after _ _ =>
      exact absurd (hafter.symm.trans after.client) (by simp [Standing.id?])

/-- What is sent on a connection in a run, and what the next event sends on it. -/
structure Streamed (key : ClientKey) (turn : ManagerTurn) : Prop where
  shape : Stream (said key turn.actions)
  /-- The reply to a registered client tells it the identifier that the session has for it. -/
  greeted : ∀ id, turn.manager.session.clients.get? key = some id →
    Greeted id (said key turn.actions)
  registering : ∀ step id, turn.manager.session.clients.get? key = none →
    (take step turn.manager).manager.session.clients.get? key = some id →
      ∃ previousId, step.2 = .message key (.registerClient previousId)
        ∧ key ∈ turn.manager.handshakes.keys
        ∧ said key (take step turn.manager).actions = .registerClientReply id ::
          if (broughtId previousId).isSome then []
          else [.saveYourself .local false .none false]
  first : key ∈ turn.manager.handshakes.keys → ∀ w message,
    FirstMessage turn.manager key w message

/-- **What a session manager sends on a connection in any run.** -/
theorem streams (w : Surroundings) (manifests : List Manifest) (ids : ClientIds)
    (name : Option String) (phaseTimeout handshakeTimeout : Nat) (steps : List Step)
    (key : ClientKey) :
    Streamed key ((start w {
      session := { Session.new manifests ids with name, phaseTimeout }
      handshakeTimeout }).andThen (handleEach · steps)) := by
  have hinit := Reachable.init w manifests ids name phaseTimeout handshakeTimeout
  have hreach := hinit.handleEach steps
  have htold := told_run hinit (told_start key w _ rfl) steps
  rw [← said_append] at htold
  refine ⟨htold.shape, htold.registered, fun step id hbefore hafter => ?_,
    fun hwaits w message => ?_⟩
  · exact said_registering hreach hbefore hafter
  · exact firstMessage hreach hwaits w message

end Xsmp.Manager
