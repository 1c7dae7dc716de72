import Xsmp.Manager.Basic

/-!
# What the manager passes on

The manager does what the session asks for by folding over the effects of an
operation. Of everything it keeps, only the participants change, and of a
participant this development looks at two things: the queue of its saves, and the
orders it is given, to save or to die. Seen that way the fold is one over queues,
and everything else is a frame.
-/

namespace Xsmp

/-! ## Queues -/

/-- The save that a call asks a client for. -/
def ClientCall.asks : ClientCall → Option SaveType
  | .registered _ false => some .local
  | .saveState => some .local
  | .saveYourself full => some (if full then .both else .global)
  | _ => none

/-- Whether a message tells a client to save or to die. -/
def ManagerMessage.isOrder : ManagerMessage → Bool
  | .saveYourself .. | .die => true
  | _ => false

namespace SaveQueue

variable (key : ClientKey) (queue : SaveQueue)

/-- A client's queue after a call. -/
def called (call : ClientCall) : SaveQueue :=
  match call.asks with
  | some type => (queue.request type).2
  | none => queue

/-- What a call orders a client to do. -/
def callOrders (call : ClientCall) : List ManagerMessage :=
  match call with
  | .die => [.die]
  | _ =>
    match call.asks with
    | some type => (queue.request type).1.toList.map Participant.saveMessage
    | none => []

/-- A client's queue after an effect of the session. -/
def heard (effect : Effect) : SaveQueue :=
  match effect with
  | .called client call => if client = key then queue.called call else queue
  | _ => queue

/-- A client's queue after all effects of an operation. -/
def heardAll (effects : List Effect) : SaveQueue := effects.foldl (heard key) queue

/-- What the effects of an operation order a client to do. -/
def heardOrders (queue : SaveQueue) : List Effect → List ManagerMessage
  | [] => []
  | effect :: effects =>
    (match effect with
      | .called client call => if client = key then queue.callOrders call else []
      | _ => []) ++ heardOrders (queue.heard key effect) effects

@[simp] theorem heardAll_nil : heardAll key queue [] = queue := rfl

@[simp] theorem heardAll_cons (effect : Effect) (effects : List Effect) :
    heardAll key queue (effect :: effects) = heardAll key (heard key queue effect) effects := rfl

theorem map_heard_of_same {key : ClientKey} {effect : Effect}
    (h : ∀ queue, heard key queue effect = queue) {queue : Option SaveQueue} :
    queue.map (·.heard key effect) = queue := by
  cases queue with
  | none => rfl
  | some queue => simp [h]

/-- Effects that do not ask the client for a save leave its queue as it is. -/
theorem heardAll_of_quiet {effects : List Effect}
    (h : ∀ call, .called key call ∈ effects → call.asks = none) :
    heardAll key queue effects = queue := by
  induction effects generalizing queue with
  | nil => rfl
  | cons effect effects ih =>
      have hrest : ∀ call, .called key call ∈ effects → call.asks = none :=
        fun call hcall => h call (List.mem_cons_of_mem effect hcall)
      have hhead : heard key queue effect = queue := by
        cases effect with
        | called client call =>
            by_cases hkey : client = key
            · subst hkey
              have hasks := h call List.mem_cons_self
              simp [heard, called, hasks]
            · simp [heard, hkey]
        | _ => rfl
      rw [heardAll_cons, hhead]
      exact ih queue hrest

/-- Asking each of some clients asks a client that is one of them, and once. -/
theorem heardAll_callEach {clients : List ClientKey} (hnodup : clients.Nodup)
    (hmem : key ∈ clients) (call : ClientCall) :
    heardAll key queue (Session.callEach clients call) = queue.called call := by
  induction clients with
  | nil => exact absurd hmem (by simp)
  | cons client rest ih =>
      obtain ⟨hfresh, hnodup⟩ := List.nodup_cons.mp hnodup
      show heardAll key (heard key queue (.called client call)) (Session.callEach rest call) = _
      rcases List.mem_cons.mp hmem with heq | hmem
      · subst heq
        -- the rest of the clients are others
        have hquiet : ∀ other, .called key other ∈ Session.callEach rest call →
            other.asks = none := by
          intro other hother
          obtain ⟨k, hk, heq⟩ := List.mem_map.mp hother
          exact absurd ((Effect.called.inj heq).1 ▸ hk) hfresh
        rw [heardAll_of_quiet key _ hquiet]
        simp [heard]
      · have hne : client ≠ key := fun heq => hfresh (heq ▸ hmem)
        have hhead : heard key queue (.called client call) = queue := by simp [heard, hne]
        rw [hhead]
        exact ih hnodup hmem

end SaveQueue

/-! ## Participants -/

namespace Participant

theorem called_saves (participant : Participant) (call : ClientCall) :
    (participant.called call).participant.saves = participant.saves.called call := by
  cases call with
  | registered clientId resumed => cases resumed <;> rfl
  | _ => rfl

theorem saveMessage_isOrder (type : SaveType) : (saveMessage type).isOrder = true := by
  cases type <;> rfl

/-- Requests for saves are orders, all of them. -/
theorem filter_saveMessage (saves : Option SaveType) :
    (saves.toList.map saveMessage).filter ManagerMessage.isOrder = saves.toList.map saveMessage := by
  cases saves with
  | none => rfl
  | some type => simp [saveMessage_isOrder]

/-- A call of the session orders what it says, and nothing else is said by itself. -/
theorem called_orders (participant : Participant) (call : ClientCall) :
    (participant.called call).sent.filter ManagerMessage.isOrder =
      participant.saves.callOrders call := by
  cases call with
  | registered clientId resumed =>
      cases resumed with
      | true => rfl
      | false =>
          show List.filter _ (_ :: _) = _
          rw [List.filter_cons_of_neg (by simp [ManagerMessage.isOrder])]
          exact filter_saveMessage _
  | saveState => exact filter_saveMessage _
  | saveYourself full => exact filter_saveMessage _
  | _ => rfl

end Participant

/-! ## The manager -/

@[simp] theorem ManagerTurn.andThen_manager (turn : ManagerTurn) (next : Manager → ManagerTurn) :
    (turn.andThen next).manager = (next turn.manager).manager := rfl

@[simp] theorem ManagerTurn.andThen_actions (turn : ManagerTurn) (next : Manager → ManagerTurn) :
    (turn.andThen next).actions = turn.actions ++ (next turn.manager).actions := rfl

namespace Manager

variable {manager : Manager} {key : ClientKey}

/-- What a client is ordered to do by some actions, in order. -/
def orders (key : ClientKey) (actions : List ManagerAction) : List ManagerMessage :=
  actions.filterMap fun action =>
    match action with
    | .sent client message => if client = key ∧ message.isOrder = true then some message else none
    | _ => none

@[simp] theorem orders_nil (key : ClientKey) : orders key [] = [] := rfl

@[simp] theorem orders_append (key : ClientKey) (before after : List ManagerAction) :
    orders key (before ++ after) = orders key before ++ orders key after :=
  List.filterMap_append

theorem orders_sent_self (key : ClientKey) (messages : List ManagerMessage) :
    orders key (messages.map (.sent key)) = messages.filter ManagerMessage.isOrder := by
  rw [orders, List.filterMap_map, ← List.filterMap_eq_filter]
  congr 1
  funext message
  by_cases h : message.isOrder = true <;> simp [h, Option.guard]

theorem orders_sent_of_ne {client : ClientKey} (h : client ≠ key) (messages : List ManagerMessage) :
    orders key (messages.map (.sent client)) = [] := by
  rw [orders, List.filterMap_map, List.filterMap_eq_nil_iff]
  intro message _
  simp [h]

theorem mem_orders {message : ManagerMessage} {actions : List ManagerAction}
    (h : message.isOrder = true) : message ∈ orders key actions ↔ .sent key message ∈ actions := by
  rw [orders, List.mem_filterMap]
  constructor
  · intro hmem
    obtain ⟨action, hmem, heq⟩ := hmem
    cases action with
    | sent client other =>
        simp only at heq
        split at heq
        · rename_i hboth
          obtain rfl := Option.some.inj heq
          exact hboth.1 ▸ hmem
        · exact absurd heq (by simp)
    | _ => exact absurd heq (by simp)
  · exact fun hmem => ⟨.sent key message, hmem, by simp [h]⟩

/-- The queue of a registered client. -/
def saves? (manager : Manager) (key : ClientKey) : Option SaveQueue :=
  (manager.participants.get? key).map (·.saves)

/-- What a manager keeps besides its session and its participants. -/
structure SameRest (manager next : Manager) : Prop where
  handshakes : next.handshakes = manager.handshakes
  lastKey : next.lastKey = manager.lastKey

theorem SameRest.trans {first second third : Manager} (h : SameRest first second)
    (h' : SameRest second third) : SameRest first third :=
  ⟨h'.handshakes.trans h.handshakes, h'.lastKey.trans h.lastKey⟩

theorem relay_frame (effect : Effect) (manager : Manager) :
    (relay effect manager).manager.session = manager.session
      ∧ SameRest manager (relay effect manager).manager := by
  unfold relay
  split
  · exact ⟨rfl, rfl, rfl⟩
  · split
    · exact ⟨rfl, rfl, rfl⟩
    · exact ⟨rfl, rfl, rfl⟩
  all_goals exact ⟨rfl, rfl, rfl⟩

theorem relayAll_frame (effects : List Effect) (manager : Manager) :
    (relayAll effects manager).manager.session = manager.session
      ∧ SameRest manager (relayAll effects manager).manager := by
  induction effects generalizing manager with
  | nil => exact ⟨rfl, rfl, rfl⟩
  | cons effect effects ih =>
      obtain ⟨hsession, hrest⟩ := relay_frame effect manager
      obtain ⟨hsession', hrest'⟩ := ih (relay effect manager).manager
      exact ⟨hsession'.trans hsession, hrest.trans hrest'⟩

theorem relay_called_none {client : ClientKey} {call : ClientCall}
    (hget : manager.participants.get? client = none) :
    relay (.called client call) manager = { manager } := by
  cases call <;> simp [relay, hget]

theorem relay_called_some {client : ClientKey} {call : ClientCall} {participant : Participant}
    (hcall : call ≠ .restart) (hget : manager.participants.get? client = some participant) :
    relay (.called client call) manager = {
      manager := { manager with
        participants := manager.participants.insert client (participant.called call).participant }
      actions := (participant.called call).sent.map (.sent client) } := by
  cases call with
  | restart => exact absurd rfl hcall
  | _ => simp only [relay, hget]

theorem relay_restart (key client : ClientKey) (manager : Manager) :
    (relay (.called client .restart) manager).manager = manager
      ∧ orders key (relay (.called client .restart) manager).actions = [] := by
  refine ⟨rfl, ?_⟩
  show orders key ((manager.participants.get? client).toList.map .restarted) = []
  cases manager.participants.get? client with
  | none => rfl
  | some participant => rfl

/-- A call changes the queue of the client it is for and orders that client to do what it
says. -/
theorem relay_key (effect : Effect) (manager : Manager) (key : ClientKey) :
    (relay effect manager).manager.saves? key = (manager.saves? key).map (·.heard key effect)
      ∧ orders key (relay effect manager).actions =
        (manager.saves? key).elim [] (·.heardOrders key [effect]) := by
  cases effect with
  | called client call =>
      by_cases hrestart : call = .restart
      · subst hrestart
        -- a restart is the one call that is not passed on to the client itself
        obtain ⟨hmanager, horders⟩ := relay_restart key client manager
        rw [hmanager, horders]
        constructor
        · refine (SaveQueue.map_heard_of_same fun queue => ?_).symm
          simp [SaveQueue.heard, SaveQueue.called, ClientCall.asks]
        · cases manager.saves? key with
          | none => rfl
          | some queue => simp [SaveQueue.heardOrders, SaveQueue.callOrders, ClientCall.asks]
      · by_cases hkey : client = key
        · subst hkey
          cases hget : manager.participants.get? client with
          | none =>
              -- a call to somebody who is not there is lost
              rw [relay_called_none hget]
              simp [saves?, hget]
          | some participant =>
              rw [relay_called_some hrestart hget, orders_sent_self, Participant.called_orders]
              simp [saves?, hget, KeyMap.get?_insert_self, SaveQueue.heard,
                Participant.called_saves, SaveQueue.heardOrders]
        · have hsame : ∀ queue, SaveQueue.heard key queue (.called client call) = queue :=
            fun _ => by simp [SaveQueue.heard, hkey]
          have hnothing : (manager.saves? key).elim []
              (·.heardOrders key [.called client call]) = [] := by
            cases manager.saves? key with
            | none => rfl
            | some queue => simp [SaveQueue.heardOrders, hkey]
          rw [SaveQueue.map_heard_of_same hsame, hnothing]
          cases hget : manager.participants.get? client with
          | none =>
              rw [relay_called_none hget]
              exact ⟨rfl, rfl⟩
          | some participant =>
              rw [relay_called_some hrestart hget]
              refine ⟨?_, orders_sent_of_ne hkey _⟩
              simp [saves?, KeyMap.get?_insert_of_ne (Ne.symm hkey)]
  | _ =>
      refine ⟨(SaveQueue.map_heard_of_same fun _ => rfl).symm, ?_⟩
      cases manager.saves? key with
      | none => rfl
      | some queue => rfl

theorem saves?_relayAll (effects : List Effect) (manager : Manager) (key : ClientKey) :
    (relayAll effects manager).manager.saves? key =
      (manager.saves? key).map (·.heardAll key effects) := by
  induction effects generalizing manager with
  | nil => simp [relayAll]
  | cons effect effects ih =>
      show (relayAll effects (relay effect manager).manager).manager.saves? key = _
      rw [ih, (relay_key effect manager key).1, Option.map_map]
      rfl

/-- A client that is not registered is ordered to do nothing, and any other what the effects
say. -/
theorem orders_relayAll (effects : List Effect) (manager : Manager) (key : ClientKey) :
    orders key (relayAll effects manager).actions =
      (manager.saves? key).elim [] (·.heardOrders key effects) := by
  induction effects generalizing manager with
  | nil =>
      cases manager.saves? key with
      | none => rfl
      | some queue => rfl
  | cons effect effects ih =>
      obtain ⟨hsaves, horders⟩ := relay_key effect manager key
      show orders key ((relay effect manager).actions
        ++ (relayAll effects (relay effect manager).manager).actions) = _
      rw [orders_append, horders, ih, hsaves]
      cases manager.saves? key with
      | none => rfl
      | some queue => simp [SaveQueue.heardOrders]

/-! ## Following the session -/

theorem follow_session (turn : Turn) : (manager.follow turn).manager.session = turn.session :=
  (relayAll_frame turn.effects { manager with session := turn.session }).1

theorem follow_rest (manager : Manager) (turn : Turn) :
    SameRest manager (manager.follow turn).manager := by
  have h := (relayAll_frame turn.effects { manager with session := turn.session }).2
  exact ⟨h.handshakes, h.lastKey⟩

theorem saves?_follow (turn : Turn) (key : ClientKey) :
    (manager.follow turn).manager.saves? key =
      (manager.saves? key).map (·.heardAll key turn.effects) :=
  saves?_relayAll turn.effects { manager with session := turn.session } key

theorem orders_follow (turn : Turn) (key : ClientKey) :
    orders key (manager.follow turn).actions =
      (manager.saves? key).elim [] (·.heardOrders key turn.effects) :=
  orders_relayAll turn.effects { manager with session := turn.session } key

theorem follow_self : manager.follow { session := manager.session } = { manager } := rfl

end Manager

end Xsmp
