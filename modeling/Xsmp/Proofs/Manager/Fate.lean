import Xsmp.Proofs.Manager.Run
import Xsmp.Proofs.Manager.Undisturbed

/-!
# What becomes of a connection

A connection waits for its client to register, then serves a client of the session, and
at some point is closed. `Fate` says what one event does to one connection: it leaves it
where it is, opens it, registers its client, or closes it. A connection is closed for one
of four reasons (`Closes`). For this the open connections have to be those that wait and
those of registered clients (`Ledger`), so that no path of the manager closes one of them
and forgets the other.
-/

namespace Xsmp.Manager

open Session (perform Admits broughtId registerStep)

variable {w : Surroundings} {manager : Manager} {event : ManagerEvent} {turn : ManagerTurn}
  {key other : ClientKey} {message : ClientMessage} {reason : String}
  {previousId : Option String}

/-! ## Refusals -/

/-- Why a session does not take a client in that begins with a message. -/
inductive Refuses (session : Session) : ClientMessage → String → Prop
  | unregistered {message : ClientMessage}
      (h : ∀ previousId, message ≠ .registerClient previousId) :
      Refuses session message unregisteredReason
  | shuttingDown (previousId : Option String) (h : session.phase = .shutdown) :
      Refuses session (.registerClient previousId) SessionError.shuttingDown.message
  | duplicate {previousId : Option String} {id : String} (running : session.phase ≠ .shutdown)
      (brought : Session.broughtId previousId = some id) (holder : ClientKey)
      (held : session.clients.get? holder = some id) :
      Refuses session (.registerClient previousId) (SessionError.duplicateClientId id).message

theorem Refuses.not_admits {session : Session}
    (h : Refuses session (.registerClient previousId) reason) : ¬Admits session previousId := by
  intro hadmits
  cases h with
  | unregistered h => exact h previousId rfl
  | shuttingDown _ hphase => exact hadmits.1 hphase
  | duplicate _ brought holder held => exact hadmits.2 _ brought holder held

/-- A client is taken in or refused, whatever its first message is. -/
theorem refuses_or_admits (session : Session) (message : ClientMessage) :
    (∃ reason, Refuses session message reason)
      ∨ ∃ previousId, message = .registerClient previousId ∧ Admits session previousId := by
  cases message with
  | registerClient previousId =>
      by_cases hphase : session.phase = .shutdown
      · exact .inl ⟨_, .shuttingDown previousId hphase⟩
      · by_cases hadmits : Admits session previousId
        · exact .inr ⟨previousId, rfl, hadmits⟩
        · obtain ⟨id, hrest⟩ := not_forall.mp fun h => hadmits ⟨hphase, h⟩
          obtain ⟨hbrought, hrest⟩ := Classical.not_imp.mp hrest
          obtain ⟨holder, hheld⟩ := not_forall_not.mp hrest
          exact .inl ⟨_, .duplicate hphase hbrought holder hheld⟩
  | _ => exact .inl ⟨_, .unregistered (by simp)⟩

theorem register_refused {session : Session} (key : ClientKey)
    (h : Refuses session (.registerClient previousId) reason) :
    ∃ error, session.register w key previousId = .error error ∧ error.message = reason := by
  cases h with
  | unregistered h => exact absurd rfl (h previousId)
  | shuttingDown _ hphase => exact ⟨.shuttingDown, by simp [Session.register, hphase], rfl⟩
  | @duplicate _ id running brought holder held =>
      have htaken := Session.keyOf?_isSome.mpr ⟨holder, held⟩
      exact ⟨.duplicateClientId id, by simp [Session.register, running, brought, htaken], rfl⟩

theorem register_admitted {session : Session} (w : Surroundings) (key : ClientKey)
    (h : Admits session previousId) :
    ∃ id turn, session.register w key previousId = .ok (id, turn) := by
  cases hbrought : Session.broughtId previousId with
  | none =>
      simp only [Session.register, h.1, if_false, hbrought]
      exact ⟨_, _, rfl⟩
  | some id =>
      have hfree : (session.keyOf? id).isSome = false := by
        rw [← Bool.not_eq_true, Session.keyOf?_isSome]
        intro hheld
        obtain ⟨holder, hheld⟩ := hheld
        exact h.2 id hbrought holder hheld
      simp only [Session.register, h.1, if_false, hbrought, hfree]
      exact ⟨_, _, rfl⟩

/-! ## The ledger of connections -/

/-- What the manager keeps of connections. -/
structure Ledger (manager : Manager) : Prop where
  /-- The open connections are those that wait and those of registered clients. -/
  opened : ∀ key, key ∈ manager.connections ↔
    key ∈ manager.handshakes.keys ∨ key ∈ manager.session.clients.keys
  apart : ∀ key ∈ manager.handshakes.keys, key ∉ manager.session.clients.keys
  bound : ∀ key ∈ manager.connections, key ≤ manager.lastKey
  nodup : manager.connections.Nodup

/-- A client that waits is none of the session's. -/
theorem Ledger.stranger (h : Ledger manager) (hwaits : key ∈ manager.handshakes.keys) :
    manager.session.clients.get? key = none :=
  Option.not_isSome_iff_eq_none.mp fun hsome => h.apart key hwaits (KeyMap.get?_isSome.mp hsome)

/-- How far a connection has come. -/
inductive Standing where
  | waiting
  | registered (id : String)
  | gone

/-- The identifier of a connection's client. -/
def Standing.id? : Standing → Option String
  | .registered id => some id
  | _ => none

structure Stands (manager : Manager) (key : ClientKey) (standing : Standing) : Prop where
  given : key ≤ manager.lastKey
  connected : key ∈ manager.connections ↔ standing ≠ .gone
  waits : key ∈ manager.handshakes.keys ↔ standing = .waiting
  client : manager.session.clients.get? key = standing.id?

/-- An event that closes a connection. -/
inductive Closes (w : Surroundings) (manager : Manager) (key : ClientKey) : ManagerEvent → Prop
  | refused {message : ClientMessage} {reason : String} (waits : key ∈ manager.handshakes.keys)
      (h : Refuses manager.session message reason) : Closes w manager key (.message key message)
  | expired (h : key ∈ manager.overdue w.now) : Closes w manager key .handshakeTimeout
  /-- The client says goodbye. -/
  | goodbye (reasons : List String) (registered : key ∈ manager.session.clients.keys) :
      Closes w manager key (.message key (.closeConnection reasons))
  /-- The client hangs up. -/
  | hangUp (h : key ∈ manager.connections) : Closes w manager key (.closed key)

/-- What an event does to a connection. -/
inductive Fate (w : Surroundings) (event : ManagerEvent) (manager : Manager) (key : ClientKey)
    (turn : ManagerTurn) : Prop
  | stays (h : Undisturbed key manager turn)
      (old : event = .accepted → key ≠ manager.lastKey + 1)
      (lasts : ¬Closes w manager key event)
      (unheard : ∀ message, event = .message key message → key ∉ manager.handshakes.keys)
  | arrives (heq : event = .accepted) (new : key = manager.lastKey + 1)
      (after : Stands turn.manager key .waiting) (silent : turn.actions = [])
  | registers (previousId : Option String) (id : String)
      (heq : event = .message key (.registerClient previousId))
      (waits : key ∈ manager.handshakes.keys) (admitted : Admits manager.session previousId)
      (after : Stands turn.manager key (.registered id))
      (told : said key turn.actions = .registerClientReply id ::
        if (broughtId previousId).isSome then [] else [Participant.saveMessage .local])
      (left : .closed key ∉ turn.actions)
  | refused (message : ClientMessage) (reason : String) (heq : event = .message key message)
      (waits : key ∈ manager.handshakes.keys) (h : Refuses manager.session message reason)
      (after : Stands turn.manager key .gone)
      (told : said key turn.actions = [Participant.refusal reason])
      (left : .closed key ∈ turn.actions)
  /-- It is closed before its client has said anything. -/
  | dropped (h : Closes w manager key event) (heq : ∀ message, event ≠ .message key message)
      (waits : key ∈ manager.handshakes.keys) (after : Stands turn.manager key .gone)
      (silent : said key turn.actions = []) (left : .closed key ∈ turn.actions)
  /-- Its client leaves the session. -/
  | leaves (h : Closes w manager key event) (registered : key ∈ manager.session.clients.keys)
      (after : Stands turn.manager key .gone)
      (unanswered : ∀ message ∈ said key turn.actions, message.isAnswer = false)
      (left : .closed key ∈ turn.actions)

/-! ## The first message -/

/-- What a client is told that is taken in. -/
theorem said_follow_registered {participant : Participant} {after : Turn} {id : String}
    {resumed : Bool} {rest : List Effect}
    (hget : manager.participants.get? key = some participant)
    (hempty : participant.saves = .empty)
    (heffects : after.effects = .called key (.registered id resumed) :: rest)
    (huncalled : ∀ call, .called key call ∉ rest) :
    said key (manager.follow after).actions = .registerClientReply id ::
      if resumed then [] else [Participant.saveMessage .local] := by
  let started : Manager := { manager with session := after.session }
  have hcalled : relay (.called key (.registered id resumed)) started = _ :=
    relay_called_some (by simp) hget
  show said key (relayAll after.effects started).actions = _
  rw [heffects, relayAll, ManagerTurn.andThen_actions, said_append,
    said_relayAll_of_uncalled huncalled, List.append_nil, hcalled, said_sent_self]
  exact Participant.called_registered hempty id resumed

theorem perform_registered {session : Session} {id : String} {registered : Turn}
    (h : session.register w key previousId = .ok (id, registered)) :
    perform w (.register key previousId) session = registered := by
  simp [perform, h, Except.map]

/-- A connection that is closed while its client waits has had what it gets. -/
theorem close_waiting (hledger : Ledger manager) (waits : key ∈ manager.handshakes.keys) :
    Stands (close key { manager with handshakes := manager.handshakes.erase key }).manager key .gone
      ∧ said key (close key { manager with
        handshakes := manager.handshakes.erase key }).actions = []
      ∧ .closed key ∈ (close key { manager with
        handshakes := manager.handshakes.erase key }).actions := by
  let middle : Manager := { manager with handshakes := manager.handshakes.erase key }
  obtain ⟨hsession, _, hsame, _⟩ := close_frame key middle
  obtain ⟨hconnected, hclosed, hsaid⟩ := close_connections key middle key
  have hopen : key ∈ manager.connections := (hledger.opened key).mpr (.inl waits)
  refine ⟨⟨?_, ?_, ?_, ?_⟩, hsaid, hclosed.mpr ⟨rfl, hopen⟩⟩
  · rw [hsame.lastKey]
    exact hledger.bound key hopen
  · rw [hconnected]
    simp
  · rw [hsame.handshakes, KeyMap.mem_keys_erase]
    simp
  · rw [hsession]
    exact hledger.stranger waits

theorem fate_refused (hledger : Ledger manager) (waits : key ∈ manager.handshakes.keys)
    (h : Refuses manager.session message reason) :
    Fate w (.message key message) manager key
      (refuse key reason { manager with handshakes := manager.handshakes.erase key }) := by
  obtain ⟨hgone, hsaid, hclosed⟩ := close_waiting hledger waits
  refine .refused message reason rfl waits h hgone ?_ (List.mem_append_right _ hclosed)
  show said key ([.sent key (Participant.refusal reason)] ++ (close key _).actions) = _
  rw [said_append, hsaid, List.append_nil]
  exact said_sent_self key [Participant.refusal reason]

theorem fate_registers (hledger : Ledger manager) {around : Surroundings}
    {participant : Participant} {id : String} {registered : Turn}
    (waits : key ∈ manager.handshakes.keys)
    (hempty : participant.saves = .empty) (admitted : Admits manager.session previousId)
    (hreg : manager.session.register around key previousId = .ok (id, registered)) :
    Fate w (.message key (.registerClient previousId)) manager key
      (follow { manager with
        handshakes := manager.handshakes.erase key
        participants := manager.participants.insert key participant } registered) := by
  let middle : Manager := { manager with
    handshakes := manager.handshakes.erase key
    participants := manager.participants.insert key participant }
  have hopen : key ∈ manager.connections := (hledger.opened key).mpr (.inl waits)
  have hget : middle.participants.get? key = some participant := KeyMap.get?_insert_self
  have hrest := follow_rest middle registered
  obtain ⟨hconnections, hleft⟩ :=
    relayAll_connections registered.effects { middle with session := registered.session }
  have hperform := perform_registered hreg
  have hstands : ∀ id, registered.session.clients = manager.session.clients.insert key id →
      Stands (middle.follow registered).manager key (.registered id) := by
    intro id hclients
    refine ⟨?_, ?_, ?_, ?_⟩
    · rw [hrest.lastKey]
      exact hledger.bound key hopen
    · refine iff_of_true ?_ (by simp)
      show key ∈ (relayAll registered.effects _).manager.connections
      rw [hconnections]
      exact hopen
    · rw [hrest.handshakes, KeyMap.mem_keys_erase]
      simp
    · rw [follow_session, hclients]
      exact KeyMap.get?_insert_self
  cases registerStep around manager.session (.register key previousId) with
  | keeps refused _ _ => exact absurd admitted (refused key previousId rfl)
  | resumes _ _ id heq _ brought rest effects startup clients =>
      obtain ⟨rfl, rfl⟩ := Session.Operation.register.inj heq
      rw [hperform] at effects clients
      refine .registers previousId id rfl waits admitted (hstands id clients) ?_ (hleft key)
      rw [brought]
      refine said_follow_registered hget hempty effects fun call hmem => ?_
      exact absurd (startup _ hmem) (by simp [Effect.isStartup])
  | mints _ _ id heq _ brought _ effects clients =>
      obtain ⟨rfl, rfl⟩ := Session.Operation.register.inj heq
      rw [hperform] at effects clients
      refine .registers previousId id rfl waits admitted (hstands id clients) ?_ (hleft key)
      rw [brought]
      exact said_follow_registered hget hempty effects fun call => List.not_mem_nil
  | strikes _ _ heq _ => exact absurd heq (by simp)

/-- The first message of a client is refused, or the client is taken in. -/
theorem greet_cases (w : Surroundings) (key : ClientKey) (participant : Participant)
    (message : ClientMessage) (manager : Manager) :
    (∃ reason, Refuses manager.session message reason
      ∧ greet w key participant message manager = refuse key reason manager)
    ∨ ∃ previousId id registered, message = .registerClient previousId
      ∧ Admits manager.session previousId
      ∧ manager.session.register (manager.surroundings w) key previousId = .ok (id, registered)
      ∧ greet w key participant message manager =
        follow { manager with participants := manager.participants.insert key participant }
          registered := by
  rcases refuses_or_admits manager.session message with
    ⟨reason, hrefuses⟩ | ⟨previousId, rfl, hadmits⟩
  · refine .inl ⟨reason, hrefuses, ?_⟩
    cases message with
    | registerClient previousId =>
        obtain ⟨error, hreg, hreason⟩ :=
          register_refused (w := manager.surroundings w) key hrefuses
        simp only [greet, hreg, hreason]
    | _ =>
        cases hrefuses
        rfl
  · obtain ⟨id, registered, hreg⟩ := register_admitted (manager.surroundings w) key hadmits
    refine .inr ⟨previousId, id, registered, rfl, hadmits, hreg, ?_⟩
    simp only [greet, hreg]

theorem fate_greet (hledger : Ledger manager) (hbooks : Books manager) {handshake : Handshake}
    (hget : manager.handshakes.get? other = some handshake) (key : ClientKey)
    (message : ClientMessage) :
    Fate w (.message other message) manager key
      (greet w other handshake.participant message
        { manager with handshakes := manager.handshakes.erase other }) := by
  have hwaits : other ∈ manager.handshakes.keys := by
    rw [← KeyMap.get?_isSome, hget]
    rfl
  obtain ⟨_, _, hempty⟩ := hbooks.waiting other handshake hget
  by_cases hkey : key = other
  · subst hkey
    rcases greet_cases w key handshake.participant message
        { manager with handshakes := manager.handshakes.erase key } with
      ⟨reason, hrefuses, hgreet⟩ | ⟨previousId, id, registered, rfl, hadmits, hreg, hgreet⟩
    · rw [hgreet]
      exact fate_refused hledger hwaits hrefuses
    · rw [hgreet]
      exact fate_registers hledger hwaits hempty hadmits hreg
  · refine .stays ?_ (by simp) (fun hcloses => ?_) (fun said heq => ?_)
    · have hforget := undisturbed_forget hkey manager
      rcases greet_cases w other handshake.participant message
          { manager with handshakes := manager.handshakes.erase other } with
        ⟨reason, _, hgreet⟩ | ⟨previousId, id, registered, rfl, _, hreg, hgreet⟩
      · rw [hgreet]
        exact hforget.trans (undisturbed_refuse hkey reason _)
      · have hknown : Undisturbed key { manager with handshakes := manager.handshakes.erase other }
            { manager := { manager with
                handshakes := manager.handshakes.erase other
                participants := manager.participants.insert other handshake.participant } } :=
          undisturbed_known hkey _ _
        rw [hgreet, ← perform_registered hreg]
        refine hforget.trans (hknown.trans (undisturbed_perform (fun brought heq => ?_) ?_))
        · exact hkey (Session.Operation.register.inj heq).1.symm
        · simp
    · cases hcloses <;> exact hkey rfl
    · exact absurd (ManagerEvent.message.inj heq).1.symm hkey

/-! ## Clients that leave -/

/-- A client that leaves is told what the session calls for, and then its connection is
closed. -/
theorem leave_connections (w : Surroundings) (key : ClientKey) (manager : Manager)
    (k : ClientKey) :
    (k ∈ (leave w key manager).manager.connections ↔ k ∈ manager.connections ∧ k ≠ key)
      ∧ (.closed k ∈ (leave w key manager).actions ↔ k = key ∧ key ∈ manager.connections)
      ∧ said k (leave w key manager).actions =
        said k (report w key .disconnected manager).actions := by
  let after := perform (manager.surroundings w) (.report key .disconnected) manager.session
  let reported := manager.follow after
  let left : Manager :=
    { reported.manager with participants := reported.manager.participants.erase key }
  have hreport : report w key .disconnected manager = reported := report_eq _ _ _ _
  have hleave : leave w key manager = ManagerTurn.andThen
      { manager := left, actions := reported.actions ++ [] } (close key) := by
    rw [leave, hreport]
    rfl
  obtain ⟨hconnections, hopen⟩ :=
    relayAll_connections after.effects { manager with session := after.session }
  have hsame : left.connections = manager.connections := hconnections
  obtain ⟨hconnected, hclosed, hsaid⟩ := close_connections key left k
  rw [hleave, hreport, ManagerTurn.andThen_manager, ManagerTurn.andThen_actions]
  refine ⟨by rw [hconnected, hsame], ?_, ?_⟩
  · rw [List.mem_append, hclosed, hsame, List.append_nil]
    exact or_iff_right (hopen k)
  · rw [said_append, hsaid, List.append_nil, List.append_nil]

/-- Nothing happens when somebody leaves who is not there. -/
theorem leave_stranger (hbooks : Books manager) (hclient : key ∉ manager.session.clients.keys)
    (hopen : key ∉ manager.connections) (w : Surroundings) :
    leave w key manager = { manager } := by
  have hreport : report w key .disconnected manager = { manager } := by
    rw [report_eq, Session.perform_stranger hclient]
    exact follow_self
  have hget : manager.participants.get? key = none :=
    saves?_eq_none.mp (hbooks.saves?_none hclient)
  have hclose : close key manager = { manager } := by simp [close, hopen]
  rw [leave, hreport]
  simp only [ManagerTurn.andThen, KeyMap.erase_of_get?_none hget, hclose, List.append_nil]

/-- A client that leaves may have been spoken to before. -/
theorem fate_leave (hledger : Ledger manager) (hcloses : Closes w manager key event)
    (hregistered : key ∈ manager.session.clients.keys) {prepared : ManagerTurn}
    (h : Undisturbed key manager prepared) (around : Surroundings) :
    Fate w event manager key (prepared.andThen (leave around key)) := by
  let middle := prepared.manager
  have hopen : key ∈ manager.connections := (hledger.opened key).mpr (.inr hregistered)
  have hclient : key ∈ middle.session.clients.keys := by
    rw [← KeyMap.get?_isSome, h.client, KeyMap.get?_isSome]
    exact hregistered
  have hidle : key ∉ middle.handshakes.keys := by
    rw [← KeyMap.get?_isSome, h.handshake, KeyMap.get?_isSome]
    exact fun hwaits => hledger.apart key hwaits hregistered
  obtain ⟨hsession, _, _, hsame, _⟩ := leave_frame around key middle rfl
  obtain ⟨hconnected, hclosed, hsaid⟩ := leave_connections around key middle key
  cases registerStep (middle.surroundings around) middle.session (.report key .disconnected) with
  | keeps _ struck _ => exact absurd rfl (struck key hclient)
  | resumes _ _ _ heq => exact absurd heq (by simp)
  | mints _ _ _ heq => exact absurd heq (by simp)
  | strikes client _ heq hkeeps =>
      obtain ⟨rfl, _⟩ := Session.Operation.report.inj heq
      refine .leaves hcloses hregistered ⟨?_, ?_, ?_, ?_⟩ ?_ ?_
      · show key ≤ (leave around key middle).manager.lastKey
        rw [hsame.lastKey]
        exact h.given.mpr (hledger.bound key hopen)
      · show key ∈ (leave around key middle).manager.connections ↔ _
        rw [hconnected]
        simp
      · show key ∈ (leave around key middle).manager.handshakes.keys ↔ _
        rw [hsame.handshakes]
        exact iff_of_false hidle (by simp)
      · show (leave around key middle).manager.session.clients.get? key = none
        rw [hsession, hkeeps.clients]
        exact KeyMap.get?_erase_self
      · intro message hmem
        rw [ManagerTurn.andThen_actions, said_append] at hmem
        rcases List.mem_append.mp hmem with hmem | hmem
        · exact h.unanswered message hmem
        · rw [hsaid, report_eq] at hmem
          refine isAnswer_relayAll (fun id resumed hmem => ?_) _ message hmem
          exact absurd (hkeeps.silent _ hmem) (by simp [Effect.isGreeting])
      · refine List.mem_append_right _ (hclosed.mpr ⟨rfl, ?_⟩)
        exact h.connected.mpr hopen

/-! ## Events of a connection -/

/-- A message of a client that waits for nothing closes the client's own connection only, and
only as a goodbye. -/
theorem closes_message (hidle : other ∉ manager.handshakes.keys)
    (h : Closes w manager key (.message other message)) :
    key = other ∧ key ∈ manager.session.clients.keys
      ∧ ∃ reasons, message = .closeConnection reasons := by
  cases h with
  | refused waits _ => exact absurd waits hidle
  | goodbye reasons registered => exact ⟨rfl, registered, reasons, rfl⟩

/-- A registered client is heard. -/
theorem fate_heard (hledger : Ledger manager) (hbooks : Books manager)
    (hget : manager.handshakes.get? other = none) {participant : Participant}
    (hpart : manager.participants.get? other = some participant) (key : ClientKey)
    (message : ClientMessage) :
    Fate w (.message other message) manager key (receive w other message manager) := by
  have hidle : other ∉ manager.handshakes.keys := by
    rw [← KeyMap.get?_isSome, hget]
    simp
  have hunheard : ∀ said, ManagerEvent.message other message = .message key said →
      key ∉ manager.handshakes.keys := by
    intro said heq
    exact (ManagerEvent.message.inj heq).1 ▸ hidle
  have hreacted := undisturbed_reacted key hpart message
  cases hreported : (participant.received message).reported with
  | none =>
      have hreceive : receive w other message manager =
          (reacted other (participant.received message) manager).andThen ({ manager := · }) := by
        simp only [receive, hget, hpart, hreported, reacted]
      rw [hreceive]
      refine .stays (hreacted.andThen (undisturbed_rest key _)) (by simp) (fun hcloses => ?_)
        hunheard
      obtain ⟨_, _, reasons, rfl⟩ := closes_message hidle hcloses
      exact absurd hreported (by simp [Participant.received])
  | some event =>
      by_cases hgone : event = .disconnected
      · -- only a goodbye is reported as a disconnection
        subst hgone
        have hreceive : receive w other message manager =
            (reacted other (participant.received message) manager).andThen (leave w other) := by
          simp only [receive, hget, hpart, hreported, reacted]
        rw [hreceive]
        by_cases hkey : key = other
        · subst hkey
          obtain ⟨reasons, rfl⟩ := Participant.reported_disconnected.mp hreported
          have hregistered : key ∈ manager.session.clients.keys := by
            rw [← hbooks.registered, saves?, hpart]
            rfl
          exact fate_leave hledger (.goodbye reasons hregistered) hregistered hreacted w
        · refine .stays (hreacted.andThen (undisturbed_leave hkey w _)) (by simp)
            (fun hcloses => ?_) hunheard
          exact hkey (closes_message hidle hcloses).1
      · have hreceive : receive w other message manager =
            (reacted other (participant.received message) manager).andThen
              (report w other event) := by
          simp only [receive, hget, hpart, hreported, reacted]
        rw [hreceive]
        refine .stays (hreacted.andThen ?_) (by simp) (fun hcloses => ?_) hunheard
        · rw [report_eq]
          exact undisturbed_perform (by simp) fun heq =>
            hgone (Session.Operation.report.inj heq).2
        · obtain ⟨_, _, reasons, rfl⟩ := closes_message hidle hcloses
          exact hgone (Option.some.inj hreported).symm

/-- A message of a client that waits for nothing is heard if the client is registered. -/
theorem fate_receive (hledger : Ledger manager) (hbooks : Books manager)
    (hget : manager.handshakes.get? other = none) (key : ClientKey) (message : ClientMessage) :
    Fate w (.message other message) manager key (receive w other message manager) := by
  cases hpart : manager.participants.get? other with
  | some participant => exact fate_heard hledger hbooks hget hpart key message
  | none =>
      have hidle : other ∉ manager.handshakes.keys := by
        rw [← KeyMap.get?_isSome, hget]
        simp
      have hreceive : receive w other message manager = { manager } := by
        simp only [receive, hget, hpart]
      rw [hreceive]
      refine .stays (undisturbed_rest key manager) (by simp) (fun hcloses => ?_) fun said heq => ?_
      · obtain ⟨heq, hregistered, _⟩ := closes_message hidle hcloses
        have hsome := (hbooks.registered key).mpr hregistered
        rw [heq, saves?_eq_none.mpr hpart] at hsome
        exact absurd hsome (by simp)
      · exact (ManagerEvent.message.inj heq).1 ▸ hidle

/-- The end of a client's input while the client waits. -/
theorem fate_lose_waiting (hledger : Ledger manager) (hwaits : other ∈ manager.handshakes.keys)
    (key : ClientKey) : Fate w (.closed other) manager key
      (close other { manager with handshakes := manager.handshakes.erase other }) := by
  by_cases hkey : key = other
  · subst hkey
    obtain ⟨hgone, hsaid, hclosed⟩ := close_waiting hledger hwaits
    have hopen : key ∈ manager.connections := (hledger.opened key).mpr (.inl hwaits)
    exact .dropped (.hangUp hopen) (by simp) hwaits hgone hsaid hclosed
  · refine .stays ((undisturbed_forget hkey manager).trans (undisturbed_close hkey _)) (by simp)
      (fun hcloses => ?_) (by simp)
    cases hcloses
    exact hkey rfl

/-- The end of a client's input. -/
theorem fate_lose (hledger : Ledger manager) (hbooks : Books manager) (key other : ClientKey) :
    Fate w (.closed other) manager key (lose w other manager) := by
  by_cases hwaits : manager.handshakes.contains other = true
  · have hlose : lose w other manager =
        close other { manager with handshakes := manager.handshakes.erase other } := by
      simp only [lose, hwaits, if_true]
    rw [hlose]
    exact fate_lose_waiting hledger (KeyMap.contains_iff.mp hwaits) key
  · have hlose : lose w other manager = leave w other manager := by
      simp only [lose, hwaits]
      rfl
    rw [hlose]
    by_cases hkey : key = other
    · subst hkey
      have hidle : key ∉ manager.handshakes.keys := fun h => hwaits (KeyMap.contains_iff.mpr h)
      by_cases hregistered : key ∈ manager.session.clients.keys
      · have hopen : key ∈ manager.connections := (hledger.opened key).mpr (.inr hregistered)
        exact fate_leave hledger (.hangUp hopen) hregistered (undisturbed_rest key manager) w
      · have hclosed : key ∉ manager.connections := by
          rw [hledger.opened, not_or]
          exact ⟨hidle, hregistered⟩
        -- the connection was closed before, and its end is still to be noticed
        rw [leave_stranger hbooks hregistered hclosed]
        refine .stays (undisturbed_rest key manager) (by simp) (fun hcloses => ?_) (by simp)
        cases hcloses with
        | hangUp hopen => exact hclosed hopen
    · refine .stays (undisturbed_leave hkey w manager) (by simp) (fun hcloses => ?_) (by simp)
      cases hcloses
      exact hkey rfl

theorem fate_accept (hledger : Ledger manager) (key : ClientKey) :
    Fate w .accepted manager key { manager := accept w.now manager } := by
  by_cases hkey : key = manager.lastKey + 1
  · have hstranger : manager.session.clients.get? key = none := by
      refine Option.not_isSome_iff_eq_none.mp fun hsome => ?_
      have hopen := (hledger.opened key).mpr (.inr (KeyMap.get?_isSome.mp hsome))
      have hle := hledger.bound key hopen
      rw [hkey] at hle
      exact Nat.not_succ_le_self _ hle
    refine .arrives rfl hkey ⟨Nat.le_of_eq hkey, ?_, ?_, hstranger⟩ rfl
    · simp [accept, hkey]
    · simp [accept, hkey, KeyMap.mem_keys_insert]
  · refine .stays (undisturbed_accept hkey w.now) (fun _ => hkey) (fun hcloses => ?_) (by simp)
    cases hcloses

theorem fate_expire (hledger : Ledger manager) (key : ClientKey) :
    Fate w .handshakeTimeout manager key (expire (manager.overdue w.now) manager) := by
  by_cases hdue : key ∈ manager.overdue w.now
  · have hwaits : key ∈ manager.handshakes.keys := by
      obtain ⟨entry, hentry, rfl⟩ := List.mem_map.mp hdue
      exact List.mem_map.mpr ⟨entry, (List.mem_filter.mp hentry).1, rfl⟩
    have hopen : key ∈ manager.connections := (hledger.opened key).mpr (.inl hwaits)
    obtain ⟨hconnected, hhandshake, hclosed, hsaid⟩ :=
      expire_connections (manager.overdue w.now) manager key
    obtain ⟨hsession, _, hlast, _⟩ := expire_frame (manager.overdue w.now) manager
    refine .dropped (.expired hdue) (by simp) hwaits ⟨?_, ?_, ?_, ?_⟩ hsaid
      (hclosed.mpr ⟨hdue, hopen⟩)
    · rw [hlast]
      exact hledger.bound key hopen
    · rw [hconnected]
      simp [hdue]
    · rw [← KeyMap.get?_isSome, hhandshake]
      simp [hdue]
    · rw [hsession]
      exact hledger.stranger hwaits
  · refine .stays (undisturbed_expire hdue manager) (by simp) (fun hcloses => ?_) (by simp)
    cases hcloses with
    | expired h => exact hdue h

/-! ## All events -/

/-- An event that is about no connection. -/
theorem fate_elsewhere (h : Undisturbed key manager turn) (hnew : event ≠ .accepted)
    (hcloses : ¬Closes w manager key event)
    (hmessage : ∀ message, event ≠ .message key message) : Fate w event manager key turn :=
  .stays h (fun heq => absurd heq hnew) hcloses fun message heq => absurd heq (hmessage message)

/-- **What every event does to every connection.** -/
theorem fate (hledger : Ledger manager) (hbooks : Books manager) (w : Surroundings)
    (event : ManagerEvent) (key : ClientKey) :
    Fate w event manager key (handle w event manager) := by
  cases event with
  | accepted => exact fate_accept hledger key
  | message other message =>
      cases hget : manager.handshakes.get? other with
      | none => exact fate_receive hledger hbooks hget key message
      | some handshake =>
          have hreceive : handle w (.message other message) manager =
              greet w other handshake.participant message
                { manager with handshakes := manager.handshakes.erase other } := by
            simp only [handle, receive, hget]
          rw [hreceive]
          exact fate_greet hledger hbooks hget key message
  | closed other => exact fate_lose hledger hbooks key other
  | control request =>
      exact fate_elsewhere (undisturbed_control key request manager) (by simp) (by rintro ⟨⟩)
        (by simp)
  | programExited pid =>
      have hturn : Undisturbed key manager (manager.follow
          (perform (manager.surroundings w) (.programExited pid) manager.session)) :=
        undisturbed_perform (by simp) (by simp)
      exact fate_elsewhere hturn (by simp) (by rintro ⟨⟩) (by simp)
  | phaseTimeout =>
      have hturn : Undisturbed key manager (manager.follow
          (perform (manager.surroundings w) .timeout manager.session)) :=
        undisturbed_perform (by simp) (by simp)
      exact fate_elsewhere hturn (by simp) (by rintro ⟨⟩) (by simp)
  | handshakeTimeout => exact fate_expire hledger key
  | signal =>
      exact fate_elsewhere (undisturbed_interrupt key manager) (by simp) (by rintro ⟨⟩) (by simp)

end Xsmp.Manager
