import Xsmp.Proofs.Manager.Handled

/-!
# What an event does

Every event is `Handled`, so that runs of a manager are runs of its session, and
nothing later looks at how an event is dealt with.
-/

namespace Xsmp.Manager

open Session (Operation perform LogoutInv clients_perform)

variable {w : Surroundings} {manager middle : Manager} {event : ManagerEvent}
  {turn : ManagerTurn} {operation : Operation} {key : ClientKey}

/-! ## Clients that wait to register -/

theorem waits_of_erased {k : ClientKey} {handshake : Handshake}
    (h : (manager.handshakes.erase key).get? k = some handshake) :
    k ≠ key ∧ manager.handshakes.get? k = some handshake := by
  by_cases heq : k = key
  · subst heq
    rw [KeyMap.get?_erase_self] at h
    exact absurd h (by simp)
  · rw [KeyMap.get?_erase_of_ne heq] at h
    exact ⟨heq, h⟩

/-- A client that waits to register. -/
structure Waits (manager : Manager) (key : ClientKey) (handshake : Handshake) : Prop where
  contains : manager.handshakes.contains key = true
  stranger : key ∉ manager.session.clients.keys
  saves : manager.saves? key = none
  empty : handshake.participant.saves = .empty

theorem Books.waits (h : Books manager) {handshake : Handshake}
    (hget : manager.handshakes.get? key = some handshake) : Waits manager key handshake := by
  obtain ⟨hstranger, _, hempty⟩ := h.waiting key handshake hget
  refine ⟨?_, hstranger, h.saves?_none hstranger, hempty⟩
  rw [KeyMap.contains, hget]
  rfl

/-- A client that is refused is not known to the session, before or after. -/
theorem handled_refuse (hbooks : Books manager) {handshake : Handshake} {message : ClientMessage}
    (hwaits : Waits manager key handshake) (reason : String)
    (hmiddle : middle = { manager with handshakes := manager.handshakes.erase key })
    (hturn : sessionTurn w manager (.message key message) = { session := manager.session }) :
    Handled w manager (.message key message) (refuse key reason middle) := by
  obtain ⟨hsession, hparticipants, hsame, hsilent⟩ := close_frame key middle
  have hrefuse : (refuse key reason middle).manager = (close key middle).manager := rfl
  refine handled_idle hbooks (prepared_stranger hwaits.saves message) hturn ?_ ?_ ?_ ?_ ?_
  · rw [hrefuse, hsession, hmiddle]
  · intro k
    rw [hrefuse, saves?, hparticipants, hmiddle, saves?]
  · intro k h hk
    rw [hrefuse, hsame.handshakes, hmiddle] at hk
    obtain ⟨hne, hk⟩ := waits_of_erased hk
    refine ⟨hk, ?_⟩
    intro previousId hasked
    cases asked_of_some hasked with
    | register _ _ => exact hne rfl
  · rw [hrefuse, hsame.lastKey, hmiddle]
  · intro k
    show orders k ([.sent key (Participant.refusal reason)] ++ (close key middle).actions) = []
    rw [orders_append, hsilent k, List.append_nil]
    simp [orders, Participant.refusal, ManagerMessage.isOrder]

/-- A client that is registered begins with an empty queue. -/
theorem handled_register (hbooks : Books manager) (hinv : LogoutInv manager.session)
    {handshake : Handshake} {previousId : Option String} {id : String} {registered : Turn}
    (hwaits : Waits manager key handshake)
    (hreg : manager.session.register w key previousId = .ok (id, registered))
    (hmiddle : middle = { manager with
      handshakes := manager.handshakes.erase key
      participants := manager.participants.insert key handshake.participant }) :
    Handled w manager (.message key (.registerClient previousId)) (middle.follow registered) := by
  have hasked : manager.asked? (.message key (.registerClient previousId)) =
      some (.register key previousId) := by simp [asked?, hwaits.contains]
  have hperform : perform w (.register key previousId) manager.session = registered := by
    simp [perform, hreg, Except.map]
  have hturn : sessionTurn w manager (.message key (.registerClient previousId)) = registered :=
    (sessionTurn_of_some hasked).trans hperform
  have hclients : ∀ k, k ∈ registered.session.clients.keys ↔
      k ∈ manager.session.clients.keys ∨ k = key := by
    intro k
    rw [← hperform, clients_perform hinv]
    constructor
    · intro h
      rcases h with ⟨hk, _⟩ | ⟨_, _, _, heq, _⟩
      · exact .inl hk
      · exact .inr (Operation.register.inj heq).1.symm
    · intro h
      rcases h with hk | hk
      · exact .inl ⟨hk, by simp⟩
      · subst hk
        exact .inr ⟨previousId, id, registered, rfl, hreg⟩
  have hsaves : ∀ k, middle.saves? k = if k = key then some .empty else manager.saves? k := by
    intro k
    rw [hmiddle]
    by_cases hk : k = key
    · subst hk
      simp [saves?, KeyMap.get?_insert_self, hwaits.empty]
    · simp [saves?, KeyMap.get?_insert_of_ne hk, hk]
  -- the first message is no request, so the queue is what the session makes of an empty one
  have hown : ∀ k queue,
      ManagerEvent.own k (.message key (.registerClient previousId)) queue = queue
        ∧ ManagerEvent.ownOrders k (.message key (.registerClient previousId)) queue = [] := by
    simp [ManagerEvent.own, ManagerEvent.ownOrders, SaveQueue.received, SaveQueue.receivedOrders]
  -- whoever is registered afterwards has a queue when the session's effects are passed on
  have hknown : ∀ k, k ∈ registered.session.clients.keys →
      middle.saves? k = some ((manager.saves? k).getD .empty) := by
    intro k hk
    rw [hsaves]
    by_cases heq : k = key
    · subst heq
      rw [if_pos rfl, hwaits.saves]
      rfl
    · rw [if_neg heq]
      obtain ⟨queue, hqueue⟩ := hbooks.getD (((hclients k).mp hk).resolve_right heq)
      rw [hqueue]
      rfl
  have hsame := follow_rest middle registered
  refine ⟨?_, ?_, ?_, ?_, ?_, ?_, ?_⟩
  · rw [hturn, follow_session]
  · intro k
    rw [saves?_follow, follow_session, Option.isSome_map, hclients, hsaves]
    by_cases hk : k = key
    · simp [hk]
    · simp [hk, hbooks.registered]
  · intro k queue hqueue
    have hk : k ∈ registered.session.clients.keys := by
      rw [saves?_follow, hsaves] at hqueue
      rw [hclients]
      by_cases heq : k = key
      · exact .inr heq
      · rw [if_neg heq] at hqueue
        obtain ⟨old, hold, _⟩ := Option.map_eq_some_iff.mp hqueue
        exact .inl ((hbooks.registered k).mp (by rw [hold]; rfl))
    rw [saves?_follow, hknown k hk] at hqueue
    rw [hturn, (hown k _).1]
    exact (Option.some.inj hqueue).symm
  · intro k hk
    rw [follow_session] at hk
    have hk' : k ∈ registered.session.clients.keys :=
      hk.elim (fun h => (hclients k).mpr (.inl h)) (fun h => h)
    rw [Manager.orders_follow, hknown k hk', hturn, (hown k _).1, (hown k _).2]
    rfl
  · intro k hold hnew
    rw [follow_session, hclients] at hnew
    have hne : k ≠ key := fun heq => hnew (.inr heq)
    rw [Manager.orders_follow, hsaves, if_neg hne, hbooks.saves?_none hold]
    rfl
  · intro k h hk
    have hhandshakes : middle.handshakes = manager.handshakes.erase key := by rw [hmiddle]
    rw [hsame.handshakes, hhandshakes] at hk
    obtain ⟨hne, hk⟩ := waits_of_erased hk
    refine .inl ⟨hk, ?_⟩
    rw [hasked]
    simp [Ne.symm hne]
  · exact Nat.le_of_eq (by rw [hsame.lastKey, hmiddle])

theorem handled_greet (hbooks : Books manager) (hinv : LogoutInv manager.session)
    {handshake : Handshake} (hget : manager.handshakes.get? key = some handshake)
    (message : ClientMessage)
    (hmiddle : middle = { manager with handshakes := manager.handshakes.erase key }) :
    Handled (middle.surroundings w) manager (.message key message)
      (greet w key handshake.participant message middle) := by
  have hwaits := hbooks.waits hget
  have hsession : middle.session = manager.session := by rw [hmiddle]
  cases message with
  | registerClient previousId =>
      cases hreg : manager.session.register (middle.surroundings w) key previousId with
      | error error =>
          have hgreet : greet w key handshake.participant (.registerClient previousId) middle =
              refuse key error.message middle := by simp only [greet, hsession, hreg]
          have hasked : manager.asked? (.message key (.registerClient previousId)) =
              some (.register key previousId) := by simp [asked?, hwaits.contains]
          rw [hgreet]
          refine handled_refuse hbooks hwaits error.message hmiddle ?_
          rw [sessionTurn_of_some hasked]
          simp [perform, hreg, Except.map]
      | ok result =>
          obtain ⟨id, registered⟩ := result
          have hgreet : greet w key handshake.participant (.registerClient previousId) middle =
              { middle with
                participants := middle.participants.insert key handshake.participant }.follow
                  registered := by
            simp only [greet, hsession, hreg]
          rw [hgreet]
          exact handled_register hbooks hinv hwaits hreg (by rw [hmiddle])
  | _ =>
      refine handled_refuse hbooks hwaits unregisteredReason hmiddle (sessionTurn_of_none ?_)
      simp [asked?, hwaits.contains]

/-! ## Clients that are registered -/

theorem handled_message (hbooks : Books manager) (hinv : LogoutInv manager.session)
    (hget : manager.handshakes.get? key = none) (message : ClientMessage) :
    ∃ w', Handled w' manager (.message key message) (receive w key message manager) := by
  have hcontains : manager.handshakes.contains key = false := by
    rw [KeyMap.contains, hget]
    rfl
  cases hpart : manager.participants.get? key with
  | none =>
      have hasked : manager.asked? (.message key message) = none := by
        simp [asked?, hcontains, hpart]
      have hreceive : receive w key message manager = { manager } := by
        simp only [receive, hget, hpart]
      have hnone : manager.saves? key = none := by simp [saves?, hpart]
      have hprep := prepared_stranger hnone message
      rw [hreceive]
      exact ⟨w, handled_idle hbooks hprep (sessionTurn_of_none hasked) rfl (fun _ => rfl)
        (fun _ _ h => ⟨h, by simp [hasked]⟩) rfl fun _ => rfl⟩
  | some participant =>
      have hprep := prepared_message message hpart
      have hasked : manager.asked? (.message key message) =
          (participant.received message).reported.map (.report key) := by
        simp [asked?, hcontains, hpart]
      cases hreported : (participant.received message).reported with
      | none =>
          have hreceive : receive w key message manager =
              (reacted key (participant.received message) manager).andThen ({ manager := · }) := by
            simp only [receive, hget, hpart, hreported, reacted]
          rw [hreported] at hasked
          rw [hreceive]
          refine ⟨w, handled_idle hbooks hprep (sessionTurn_of_none hasked) rfl (fun _ => rfl)
            (fun _ _ h => ⟨h, by simp [hasked]⟩) rfl fun k => ?_⟩
          rw [ManagerTurn.andThen_actions, List.append_nil]
      | some event =>
          rw [hreported] at hasked
          -- a goodbye closes the connection as well, any other report only goes to the session
          by_cases hgone : event = .disconnected
          · subst hgone
            have hreceive : receive w key message manager =
                (reacted key (participant.received message) manager).andThen (leave w key) := by
              simp only [receive, hget, hpart, hreported, reacted]
            rw [hreceive]
            refine ⟨_, handled_leave hbooks hinv hprep hasked rfl fun k => ?_⟩
            rw [ManagerTurn.andThen_actions, orders_append]
          · have hreceive : receive w key message manager =
                (reacted key (participant.received message) manager).andThen
                  (report w key event) := by
              simp only [receive, hget, hpart, hreported, reacted]
            have hstay : ∀ k, Operation.report key event ≠ .report k .disconnected :=
              fun k heq => hgone (Operation.report.inj heq).2
            rw [hreceive]
            refine ⟨(reacted key (participant.received message) manager).manager.surroundings w,
              handled_follow hbooks hinv hprep hasked hstay (by simp) ?_ fun k => ?_⟩
            · rw [ManagerTurn.andThen_manager, report_eq, hprep.session]
            · rw [ManagerTurn.andThen_actions, orders_append, report_eq, hprep.session]

/-- Turning clients away concerns those who wait to register. -/
theorem expire_frame (keys : List ClientKey) (manager : Manager) :
    (expire keys manager).manager.session = manager.session
      ∧ (expire keys manager).manager.participants = manager.participants
      ∧ (expire keys manager).manager.lastKey = manager.lastKey
      ∧ (∀ k h, (expire keys manager).manager.handshakes.get? k = some h →
          manager.handshakes.get? k = some h)
      ∧ ∀ k, orders k (expire keys manager).actions = [] := by
  induction keys generalizing manager with
  | nil => exact ⟨rfl, rfl, rfl, fun _ _ h => h, fun _ => rfl⟩
  | cons key keys ih =>
      let left : Manager := { manager with handshakes := manager.handshakes.erase key }
      obtain ⟨hsession, hparticipants, hsame, hsilent⟩ := close_frame key left
      obtain ⟨hsession', hparticipants', hlast', hhand', hsilent'⟩ := ih (close key left).manager
      refine ⟨hsession'.trans hsession, hparticipants'.trans hparticipants,
        hlast'.trans hsame.lastKey, ?_, ?_⟩
      · intro k h hk
        have hleft := hhand' k h hk
        rw [hsame.handshakes] at hleft
        exact (waits_of_erased hleft).2
      · intro k
        show orders k ((close key left).actions ++ (expire keys (close key left).manager).actions) = _
        rw [orders_append, hsilent k, hsilent' k]
        rfl

/-- An event that is nobody's message and that the session does not hear of. -/
theorem handled_unheard (hbooks : Books manager)
    (hmessage : ∀ client message, event ≠ .message client message)
    (hasked : manager.asked? event = none) (hsession : turn.manager.session = manager.session)
    (hparticipants : turn.manager.participants = manager.participants)
    (hhand : ∀ key handshake, turn.manager.handshakes.get? key = some handshake →
      manager.handshakes.get? key = some handshake)
    (hlast : turn.manager.lastKey = manager.lastKey)
    (hsilent : ∀ key, orders key turn.actions = []) : Handled w manager event turn := by
  refine handled_idle hbooks (prepared_self hmessage) (sessionTurn_of_none hasked) hsession ?_ ?_
    hlast hsilent
  · intro key
    rw [saves?, hparticipants, saves?]
  · exact fun key handshake h => ⟨hhand key handshake h, by simp [hasked]⟩

/-- An event that is nobody's message and asks the session for something. -/
theorem handled_request (hbooks : Books manager) (hinv : LogoutInv manager.session)
    (hmessage : ∀ client message, event ≠ .message client message)
    (hasked : manager.asked? event = some operation)
    (hstay : ∀ key, operation ≠ .report key .disconnected)
    (hnew : ∀ key previousId, operation ≠ .register key previousId)
    (hmanager : turn.manager = (manager.follow (perform w operation manager.session)).manager)
    (horders : ∀ key, orders key turn.actions =
      orders key (manager.follow (perform w operation manager.session)).actions) :
    Handled w manager event turn :=
  handled_follow hbooks hinv (prepared_self hmessage) hasked hstay hnew hmanager horders

/-- A client that connects waits to register. -/
theorem handled_accepted (hbooks : Books manager) (now : Moment) :
    Handled w manager .accepted { manager := accept now manager } := by
  refine ⟨rfl, hbooks.registered, ?_, fun _ _ => rfl, fun _ _ _ => rfl, ?_, Nat.le_succ _⟩
  · intro key queue hqueue
    have hsame : (accept now manager).saves? key = manager.saves? key := rfl
    rw [hsame] at hqueue
    rw [hqueue]
    rfl
  · intro key handshake h
    -- the client has a key that was not given before
    by_cases hkey : key = manager.lastKey + 1
    · subst hkey
      have hnew : (accept now manager).handshakes.get? (manager.lastKey + 1) = some handshake := h
      rw [accept, KeyMap.get?_insert_self] at hnew
      exact .inr ⟨rfl, rfl, (Option.some.inj hnew) ▸ rfl⟩
    · have hold : (accept now manager).handshakes.get? key = some handshake := h
      rw [accept, KeyMap.get?_insert_of_ne hkey] at hold
      exact .inl ⟨hold, by simp [asked?]⟩

/-- A control request is answered after what it asks for is done. -/
theorem handled_control (hbooks : Books manager) (hinv : LogoutInv manager.session)
    (request : ControlRequest) :
    Handled w manager (.control request) (control request manager) := by
  -- the answer goes to whoever sent the request, and is no order to a client
  have hanswered : ∀ (key : ClientKey) (actions : List ManagerAction) (response : ControlResponse),
      orders key (actions ++ [.answered response]) = orders key actions := by
    intro key actions response
    rw [orders_append]
    exact List.append_nil _
  cases request with
  | ping => exact handled_unheard hbooks (by simp) rfl rfl rfl (fun _ _ h => h) rfl fun _ => rfl
  | status => exact handled_unheard hbooks (by simp) rfl rfl rfl (fun _ _ h => h) rfl fun _ => rfl
  | logout =>
      exact handled_request hbooks hinv (by simp) rfl (by simp) (by simp) rfl
        fun key => hanswered key _ _
  | cancelLogout =>
      refine handled_request hbooks hinv (by simp) rfl (by simp) (by simp) ?_ fun key => ?_
      · cases h : manager.session.cancelShutdown with
        | ok turn => simp [control, perform, h]
        | error error =>
            simp only [control, perform, h]
            rfl
      · cases h : manager.session.cancelShutdown with
        | ok turn =>
            simp only [control, perform, h]
            exact hanswered key _ _
        | error error =>
            simp only [control, perform, h]
            rfl
  | checkpoint =>
      refine handled_request hbooks hinv (by simp) rfl (by simp) (by simp) ?_ fun key => ?_
      · cases h : manager.session.checkpoint with
        | ok turn => simp [control, perform, h]
        | error error =>
            simp only [control, perform, h]
            rfl
      · cases h : manager.session.checkpoint with
        | ok turn =>
            simp only [control, perform, h]
            exact hanswered key _ _
        | error error =>
            simp only [control, perform, h]
            rfl

/-! ## All events -/

/-- **Every event asks the session for at most one operation and follows what comes of it.** -/
theorem handle_handled (hbooks : Books manager) (hinv : LogoutInv manager.session)
    (w : Surroundings) (event : ManagerEvent) :
    ∃ w', Handled w' manager event (handle w event manager) := by
  cases event with
  | accepted => exact ⟨w, handled_accepted hbooks w.now⟩
  | message key message =>
      cases hget : manager.handshakes.get? key with
      | none => exact handled_message hbooks hinv hget message
      | some handshake =>
          have hreceive : handle w (.message key message) manager =
              greet w key handshake.participant message
                { manager with handshakes := manager.handshakes.erase key } := by
            simp only [handle, receive, hget]
          rw [hreceive]
          exact ⟨_, handled_greet hbooks hinv hget message rfl⟩
  | closed key =>
      by_cases hwaits : manager.handshakes.contains key = true
      · let left : Manager := { manager with handshakes := manager.handshakes.erase key }
        obtain ⟨hsession, hparticipants, hsame, hsilent⟩ := close_frame key left
        have hlose : handle w (.closed key) manager = close key left := by
          simp only [handle, lose, hwaits, if_true]
          rfl
        rw [hlose]
        refine ⟨w, handled_unheard hbooks (by simp) (by simp [asked?, hwaits]) hsession
          hparticipants ?_ hsame.lastKey hsilent⟩
        intro k h hk
        rw [hsame.handshakes] at hk
        exact (waits_of_erased hk).2
      · have hlose : handle w (.closed key) manager = leave w key manager := by
          simp only [handle, lose, hwaits]
          rfl
        rw [hlose]
        exact ⟨_, handled_leave hbooks hinv (prepared_self (by simp)) (by simp [asked?, hwaits]) rfl
          fun _ => rfl⟩
  | control request => exact ⟨w, handled_control hbooks hinv request⟩
  | programExited pid =>
      exact ⟨_, handled_request hbooks hinv (by simp) rfl (by simp) (by simp) rfl fun _ => rfl⟩
  | phaseTimeout =>
      exact ⟨_, handled_request hbooks hinv (by simp) rfl (by simp) (by simp) rfl fun _ => rfl⟩
  | handshakeTimeout =>
      obtain ⟨hsession, hparticipants, hlast, hhand, hsilent⟩ :=
        expire_frame (manager.overdue w.now) manager
      exact ⟨w, handled_unheard hbooks (by simp) rfl hsession hparticipants hhand hlast hsilent⟩
  | signal =>
      by_cases hphase : manager.session.phase = .shutdown
      · have hasked : manager.asked? .signal = some .forceShutdown := by simp [asked?, hphase]
        refine ⟨w, handled_request hbooks hinv (by simp) hasked (by simp) (by simp) ?_ ?_⟩
        · simp [handle, interrupt, hphase, perform]
        · simp [handle, interrupt, hphase, perform]
      · have hasked : manager.asked? .signal = some .beginShutdown := by simp [asked?, hphase]
        refine ⟨w, handled_request hbooks hinv (by simp) hasked (by simp) (by simp) ?_ ?_⟩
        · simp [handle, interrupt, hphase, perform]
        · simp [handle, interrupt, hphase, perform]

end Xsmp.Manager
