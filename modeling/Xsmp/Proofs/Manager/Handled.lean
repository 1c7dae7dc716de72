import Xsmp.Proofs.Manager.Asked
import Xsmp.Proofs.Session.Barrier

/-!
# What it is to deal with an event

`Handled` says for all events at once what becomes of the session, of the queues
and of the clients that wait to register, and what clients are ordered to do: a
client's own message has its effect first, and then what the session calls for.
An event by which nobody comes is dealt with in one of three ways: the session
does nothing about it, or the manager follows the session, or a client leaves.
-/

namespace Xsmp.Manager

open Session (Operation perform LogoutInv clients_perform)

variable {w : Surroundings} {manager : Manager} {event : ManagerEvent} {turn : ManagerTurn}
  {operation : Operation} {key : ClientKey}

/-! ## The books -/

/-- What the manager knows about connections. -/
structure Books (manager : Manager) : Prop where
  /-- The registered clients are those of the session. -/
  registered : ∀ key, (manager.saves? key).isSome = true ↔ key ∈ manager.session.clients.keys
  /-- Who has not registered is no client, has a key that was given, and has not been asked
  for anything. -/
  waiting : ∀ key handshake, manager.handshakes.get? key = some handshake →
    key ∉ manager.session.clients.keys ∧ key ≤ manager.lastKey
      ∧ handshake.participant.saves = .empty
  /-- Clients have keys that were given. -/
  bound : ∀ key ∈ manager.session.clients.keys, key ≤ manager.lastKey

/-- What an event does, if the session finds `w` around it. -/
structure Handled (w : Surroundings) (manager : Manager) (event : ManagerEvent)
    (turn : ManagerTurn) : Prop where
  /-- The session does what it is asked to do. -/
  session : turn.manager.session = (sessionTurn w manager event).session
  registered : ∀ key, (turn.manager.saves? key).isSome = true ↔
    key ∈ turn.manager.session.clients.keys
  /-- A client's queue changes by its own message and then by what the session calls for. -/
  saves : ∀ key queue, turn.manager.saves? key = some queue →
    queue = (event.own key ((manager.saves? key).getD .empty)).heardAll key
      (sessionTurn w manager event).effects
  /-- A client that is or comes to be registered is ordered to do what its own message and then
  the session call for. -/
  orders : ∀ key, key ∈ manager.session.clients.keys ∨ key ∈ turn.manager.session.clients.keys →
    orders key turn.actions =
      event.ownOrders key ((manager.saves? key).getD .empty)
        ++ (event.own key ((manager.saves? key).getD .empty)).heardOrders key
          (sessionTurn w manager event).effects
  /-- Nobody else is ordered to do anything. -/
  strangers : ∀ key, key ∉ manager.session.clients.keys →
    key ∉ turn.manager.session.clients.keys → Manager.orders key turn.actions = []
  /-- A client waits to register until it does, or has just come. -/
  handshakes : ∀ key handshake, turn.manager.handshakes.get? key = some handshake →
    (manager.handshakes.get? key = some handshake
      ∧ ∀ previousId, manager.asked? event ≠ some (.register key previousId))
    ∨ (key = manager.lastKey + 1 ∧ turn.manager.lastKey = manager.lastKey + 1
      ∧ handshake.participant.saves = .empty)
  lastKey : manager.lastKey ≤ turn.manager.lastKey

theorem Books.getD (h : Books manager) (hkey : key ∈ manager.session.clients.keys) :
    ∃ queue, manager.saves? key = some queue :=
  Option.isSome_iff_exists.mp ((h.registered key).mpr hkey)

theorem Books.saves?_none (h : Books manager) (hkey : key ∉ manager.session.clients.keys) :
    manager.saves? key = none := by
  rw [← Option.not_isSome_iff_eq_none]
  exact fun hsome => hkey ((h.registered key).mp hsome)

/-! ## Before the session has its say -/

/-- A client's own message has been dealt with, and the session has not had its say. -/
structure Prepared (manager : Manager) (event : ManagerEvent) (prepared : ManagerTurn) : Prop where
  session : prepared.manager.session = manager.session
  saves : ∀ key, prepared.manager.saves? key = (manager.saves? key).map (event.own key)
  orders : ∀ key, orders key prepared.actions = (manager.saves? key).elim [] (event.ownOrders key)
  rest : SameRest manager prepared.manager

/-- An event that is nobody's message needs nothing done. -/
theorem prepared_self (h : ∀ client message, event ≠ .message client message) :
    Prepared manager event { manager } := by
  have hown : ∀ key, event.own key = id ∧ event.ownOrders key = fun _ => [] := by
    intro key
    cases event with
    | message client message => exact absurd rfl (h client message)
    | _ => exact ⟨rfl, rfl⟩
  refine ⟨rfl, ?_, ?_, rfl, rfl⟩
  · intro key
    rw [(hown key).1, Option.map_id, id]
  · intro key
    rw [(hown key).2]
    cases manager.saves? key with
    | none => rfl
    | some queue => rfl

/-- A message concerns nobody but the client it is from. -/
theorem own_message_of_ne {k : ClientKey} {message : ClientMessage} (h : k ≠ key) :
    ManagerEvent.own k (.message key message) = id
      ∧ ManagerEvent.ownOrders k (.message key message) = fun _ => [] := by
  constructor
  · funext queue
    simp [ManagerEvent.own, Ne.symm h]
  · funext queue
    simp [ManagerEvent.ownOrders, Ne.symm h]

/-- A message of somebody who is not registered needs nothing done. -/
theorem prepared_stranger (h : manager.saves? key = none) (message : ClientMessage) :
    Prepared manager (.message key message) { manager } := by
  refine ⟨rfl, ?_, ?_, rfl, rfl⟩
  · intro k
    by_cases hk : k = key
    · subst hk
      simp [h]
    · rw [(own_message_of_ne hk).1, Option.map_id, id]
  · intro k
    by_cases hk : k = key
    · subst hk
      simp [h]
    · rw [(own_message_of_ne hk).2]
      cases manager.saves? k with
      | none => rfl
      | some queue => rfl

/-- What a registered client's message does by itself. -/
def reacted (key : ClientKey) (reaction : Reaction) (manager : Manager) : ManagerTurn where
  manager :=
    { manager with participants := manager.participants.insert key reaction.participant }
  actions := reaction.sent.map (.sent key)

theorem prepared_message {participant : Participant} (message : ClientMessage)
    (hget : manager.participants.get? key = some participant) :
    Prepared manager (.message key message)
      (reacted key (participant.received message) manager) := by
  have hsaves : manager.saves? key = some participant.saves := by simp [saves?, hget]
  refine ⟨rfl, ?_, ?_, rfl, rfl⟩
  · intro k
    by_cases hk : k = key
    · subst hk
      rw [hsaves]
      simp [reacted, saves?, KeyMap.get?_insert_self, ManagerEvent.own, Participant.received_saves]
    · rw [(own_message_of_ne hk).1, Option.map_id, id]
      simp [reacted, saves?, KeyMap.get?_insert_of_ne hk]
  · intro k
    by_cases hk : k = key
    · subst hk
      rw [reacted, orders_sent_self, Participant.received_orders]
      simp [hsaves, ManagerEvent.ownOrders]
    · rw [(own_message_of_ne hk).2, reacted, orders_sent_of_ne (Ne.symm hk)]
      cases manager.saves? k with
      | none => rfl
      | some queue => rfl

/-- A registered client is ordered to do what its own message and then the session call for,
and nobody else is ordered to do anything. -/
theorem Prepared.orders_follow {prepared : ManagerTurn} (h : Prepared manager event prepared)
    (hbooks : Books manager) (turn : Turn) (actions : List ManagerAction)
    (hactions : ∀ key, Manager.orders key actions = Manager.orders key prepared.actions
      ++ Manager.orders key (prepared.manager.follow turn).actions) (key : ClientKey) :
    (key ∈ manager.session.clients.keys → Manager.orders key actions =
      event.ownOrders key ((manager.saves? key).getD .empty)
        ++ (event.own key ((manager.saves? key).getD .empty)).heardOrders key turn.effects)
    ∧ (key ∉ manager.session.clients.keys → Manager.orders key actions = []) := by
  rw [hactions key, h.orders, Manager.orders_follow, h.saves]
  constructor
  · intro hkey
    obtain ⟨queue, hqueue⟩ := hbooks.getD hkey
    rw [hqueue]
    rfl
  · intro hkey
    rw [hbooks.saves?_none hkey]
    rfl

/-! ## Kinds of events -/

/-- An event about which the session does nothing. -/
theorem handled_idle {prepared : ManagerTurn} (hbooks : Books manager)
    (hprep : Prepared manager event prepared)
    (hturn : sessionTurn w manager event = { session := manager.session })
    (hsession : turn.manager.session = manager.session)
    (hsaves : ∀ key, turn.manager.saves? key = prepared.manager.saves? key)
    (hhand : ∀ key handshake, turn.manager.handshakes.get? key = some handshake →
      manager.handshakes.get? key = some handshake
        ∧ ∀ previousId, manager.asked? event ≠ some (.register key previousId))
    (hlast : turn.manager.lastKey = manager.lastKey)
    (horders : ∀ key, orders key turn.actions = orders key prepared.actions) :
    Handled w manager event turn := by
  have hsaid := hprep.orders_follow hbooks { session := prepared.manager.session } turn.actions
    fun key => (horders key).trans (List.append_nil _).symm
  refine ⟨by rw [hturn, hsession], ?_, ?_, ?_, ?_, ?_, Nat.le_of_eq hlast.symm⟩
  · intro key
    rw [hsaves, hprep.saves, hsession, Option.isSome_map]
    exact hbooks.registered key
  · intro key queue hqueue
    rw [hsaves, hprep.saves] at hqueue
    obtain ⟨old, hold, heq⟩ := Option.map_eq_some_iff.mp hqueue
    rw [hturn, hold]
    exact heq.symm
  · intro key hkey
    rw [hturn]
    exact (hsaid key).1 (hkey.elim id fun h => hsession ▸ h)
  · exact fun key hkey _ => (hsaid key).2 hkey
  · exact fun key handshake h => .inl (hhand key handshake h)

/-- An event that the session hears of, and by which nobody comes or goes. -/
theorem handled_follow {prepared : ManagerTurn} (hbooks : Books manager)
    (hinv : LogoutInv manager.session) (hprep : Prepared manager event prepared)
    (hasked : manager.asked? event = some operation)
    (hstay : ∀ key, operation ≠ .report key .disconnected)
    (hnew : ∀ key previousId, operation ≠ .register key previousId)
    (hmanager : turn.manager =
      (prepared.manager.follow (perform w operation manager.session)).manager)
    (horders : ∀ key, orders key turn.actions = orders key prepared.actions
      ++ orders key (prepared.manager.follow (perform w operation manager.session)).actions) :
    Handled w manager event turn := by
  have hturn := sessionTurn_of_some (w := w) hasked
  have hsame :=
    hprep.rest.trans (follow_rest prepared.manager (perform w operation manager.session))
  have hsaid := hprep.orders_follow hbooks _ turn.actions horders
  -- the operation is neither a goodbye nor a registration
  have hclients : ∀ key, key ∈ (perform w operation manager.session).session.clients.keys ↔
      key ∈ manager.session.clients.keys := by
    intro key
    rw [clients_perform hinv]
    simp [hstay, hnew]
  refine ⟨?_, ?_, ?_, ?_, ?_, ?_, ?_⟩
  · rw [hturn, hmanager, follow_session]
  · intro key
    rw [hmanager, follow_session, saves?_follow, hprep.saves, hclients, Option.isSome_map,
      Option.isSome_map]
    exact hbooks.registered key
  · intro key queue hqueue
    rw [hmanager, saves?_follow, hprep.saves, Option.map_map] at hqueue
    obtain ⟨old, hold, heq⟩ := Option.map_eq_some_iff.mp hqueue
    rw [hturn, hold]
    exact heq.symm
  · intro key hkey
    rw [hmanager, follow_session, hclients, or_self] at hkey
    rw [hturn]
    exact (hsaid key).1 hkey
  · exact fun key hkey _ => (hsaid key).2 hkey
  · intro key handshake h
    rw [hmanager, hsame.handshakes] at h
    exact .inl ⟨h, by simp [hasked, hnew]⟩
  · exact Nat.le_of_eq (by rw [hmanager, hsame.lastKey])

theorem report_eq (w : Surroundings) (key : ClientKey) (event : ClientEvent) (manager : Manager) :
    report w key event manager =
      manager.follow (perform (manager.surroundings w) (.report key event) manager.session) := by
  cases h : manager.session.report (manager.surroundings w) key event with
  | ok turn => simp only [report, perform, h]
  | error error =>
      simp only [report, perform, h]
      exact follow_self.symm

/-- Closing a connection changes nothing else. -/
theorem close_frame (key : ClientKey) (manager : Manager) :
    (close key manager).manager.session = manager.session
      ∧ (close key manager).manager.participants = manager.participants
      ∧ SameRest manager (close key manager).manager
      ∧ ∀ k, orders k (close key manager).actions = [] := by
  unfold close
  split
  · exact ⟨rfl, rfl, ⟨rfl, rfl⟩, fun _ => rfl⟩
  · exact ⟨rfl, rfl, ⟨rfl, rfl⟩, fun _ => rfl⟩

/-- A client that leaves is forgotten once the session has had its say. -/
theorem leave_frame (w : Surroundings) (key : ClientKey) (manager : Manager) {turn : Turn}
    (hturn : turn = perform (manager.surroundings w) (.report key .disconnected) manager.session) :
    (leave w key manager).manager.session = turn.session
      ∧ (leave w key manager).manager.saves? key = none
      ∧ (∀ k, k ≠ key → (leave w key manager).manager.saves? k =
          (manager.saves? k).map (·.heardAll k turn.effects))
      ∧ SameRest manager (leave w key manager).manager
      ∧ ∀ k, orders k (leave w key manager).actions = orders k (manager.follow turn).actions := by
  -- the participant is dropped between the session's answer and the end of the connection
  have hreport := report_eq w key .disconnected manager
  rw [← hturn] at hreport
  let reported := manager.follow turn
  let left : Manager :=
    { reported.manager with participants := reported.manager.participants.erase key }
  have hleave : leave w key manager =
      ({ manager := left, actions := reported.actions ++ [] } : ManagerTurn).andThen (close key) := by
    rw [leave, hreport]
    rfl
  obtain ⟨hsession, hparticipants, hsame, hsilent⟩ := close_frame key left
  rw [hleave]
  simp only [ManagerTurn.andThen_manager, ManagerTurn.andThen_actions]
  refine ⟨hsession.trans (follow_session turn), ?_, ?_, ?_, ?_⟩
  · rw [saves?, hparticipants]
    simp only [left, KeyMap.get?_erase_self, Option.map_none]
  · intro k hk
    rw [saves?, hparticipants]
    simp only [left, KeyMap.get?_erase_of_ne hk]
    exact saves?_follow turn k
  · have hfollow := follow_rest manager turn
    exact ⟨hsame.handshakes.trans hfollow.handshakes, hsame.lastKey.trans hfollow.lastKey⟩
  · intro k
    rw [orders_append, hsilent, List.append_nil, List.append_nil]

theorem handled_leave {prepared : ManagerTurn} (hbooks : Books manager)
    (hinv : LogoutInv manager.session) (hprep : Prepared manager event prepared)
    (hasked : manager.asked? event = some (.report key .disconnected))
    (hmanager : turn.manager = (leave w key prepared.manager).manager)
    (horders : ∀ k, orders k turn.actions = orders k prepared.actions
      ++ orders k (leave w key prepared.manager).actions) :
    Handled (prepared.manager.surroundings w) manager event turn := by
  have hturn := sessionTurn_of_some (w := prepared.manager.surroundings w) hasked
  obtain ⟨hleft, hnone, hothers, hsame, hcalls⟩ := leave_frame w key prepared.manager rfl
  rw [hprep.session] at hleft hothers hcalls
  have hsaid := hprep.orders_follow hbooks _ turn.actions fun k => by rw [horders k, hcalls k]
  have hclients : ∀ k, k ∈ (perform (prepared.manager.surroundings w) (.report key .disconnected)
      manager.session).session.clients.keys ↔ k ∈ manager.session.clients.keys ∧ k ≠ key := by
    intro k
    rw [clients_perform hinv]
    simp [ne_comm]
  refine ⟨?_, ?_, ?_, ?_, ?_, ?_, ?_⟩
  · rw [hturn, hmanager, hleft]
  · intro k
    rw [hmanager, hleft, hclients]
    by_cases hk : k = key
    · subst hk
      simp [hnone]
    · rw [hothers k hk, hprep.saves, Option.isSome_map, Option.isSome_map, hbooks.registered]
      simp [hk]
  · intro k queue hqueue
    rw [hmanager] at hqueue
    by_cases hk : k = key
    · subst hk
      rw [hnone] at hqueue
      exact absurd hqueue (by simp)
    · rw [hothers k hk, hprep.saves, Option.map_map] at hqueue
      obtain ⟨old, hold, heq⟩ := Option.map_eq_some_iff.mp hqueue
      rw [hturn, hold]
      exact heq.symm
  · intro k hk
    rw [hmanager, hleft, hclients] at hk
    rw [hturn]
    exact (hsaid k).1 (hk.elim id And.left)
  · exact fun k hk _ => (hsaid k).2 hk
  · intro k handshake h
    rw [hmanager, hsame.handshakes, hprep.rest.handshakes] at h
    exact .inl ⟨h, by simp [hasked]⟩
  · exact Nat.le_of_eq (by rw [hmanager, hsame.lastKey, hprep.rest.lastKey])

end Xsmp.Manager
