import Xsmp.Proofs.Manager.Run
import Xsmp.Proofs.Session.Round

/-!
# Saves that a logout leaves behind

The barrier of a logout lives in the session, and what a client has been asked
for lives in its queue; a report is all that passes between them. A client whose
logout was cancelled may still be working on the save of that logout when the
next one begins. It is asked to save once more, and that waits its turn; but the
first thing it reports counts for the new logout. So it can be told to die in the
middle of the save that the new logout asked for.

This module says when exactly. Seen as a list, a client's queue is what was there
when the round began, less one save for each report, with saves of its own state
behind it (`SavesAt`). A client that has only reported saves of its own state is
still waited for. Both together leave one way only in which a save can be left
over at the end.
-/

namespace Xsmp

/-! ## Queues as lists -/

namespace SaveQueue

variable {queue : SaveQueue} {key : ClientKey} {event : ManagerEvent}

/-- The saves of a queue, the one in flight first. -/
def toList (queue : SaveQueue) : List SaveType := queue.current.toList ++ queue.next.toList

/-- Nothing waits while nothing is in flight. -/
def WellFormed (queue : SaveQueue) : Prop := queue.current = none → queue.next = none

/-- A save that is not of the client's own state alone is in flight or waits. -/
def Unsaved (queue : SaveQueue) : Prop := ∃ type ∈ queue.toList, type ≠ .local

theorem length_toList_le (queue : SaveQueue) : queue.toList.length ≤ 2 := by
  obtain ⟨current, next⟩ := queue
  cases current <;> cases next <;> simp [toList]

theorem WellFormed.head? (h : queue.WellFormed) : queue.toList.head? = queue.current := by
  obtain ⟨current, next⟩ := queue
  cases current with
  | none =>
      have hnext : next = none := h rfl
      subst hnext
      rfl
  | some type => rfl

/-- A report takes the save in flight off the list. -/
theorem WellFormed.complete (h : queue.WellFormed) :
    queue.complete.2.WellFormed ∧ queue.complete.2.toList = queue.toList.drop 1 := by
  obtain ⟨current, next⟩ := queue
  refine ⟨fun _ => rfl, ?_⟩
  cases current with
  | none =>
      have hnext : next = none := h rfl
      subst hnext
      rfl
  | some type => cases next <;> rfl

/-- A request puts a save at the end of the list, if there is room for it. -/
theorem WellFormed.request (h : queue.WellFormed) (type : SaveType) :
    (queue.request type).2.WellFormed
      ∧ ((queue.request type).2.toList = queue.toList
        ∨ (queue.request type).2.toList = queue.toList ++ [type]) := by
  obtain ⟨current, next⟩ := queue
  cases next with
  | some waiting => exact ⟨h, .inl rfl⟩
  | none =>
      cases current with
      | none => exact ⟨fun hnone => absurd hnone (by simp [SaveQueue.request]), .inr rfl⟩
      | some type => exact ⟨fun hnone => absurd hnone (by simp [SaveQueue.request]), .inr rfl⟩

theorem WellFormed.called (h : queue.WellFormed) (call : ClientCall) :
    (queue.called call).WellFormed := by
  unfold SaveQueue.called
  split
  · exact (h.request _).1
  · exact h

theorem WellFormed.heardAll (h : queue.WellFormed) (key : ClientKey) (effects : List Effect) :
    (queue.heardAll key effects).WellFormed := by
  induction effects generalizing queue with
  | nil => exact h
  | cons effect effects ih =>
      refine ih ?_
      cases effect with
      | called client call =>
          unfold heard
          dsimp only
          split
          · exact h.called call
          · exact h
      | _ => exact h

end SaveQueue

/-- Whether a client says that it is done with a save. -/
def ManagerEvent.isDone (key : ClientKey) : ManagerEvent → Bool
  | .message client (.saveYourselfDone _) => client == key
  | _ => false

namespace SaveQueue

variable {queue : SaveQueue} {key : ClientKey} {event : ManagerEvent}

theorem own_of_isDone (h : event.isDone key = true) :
    event.own key queue = queue.complete.2 := by
  cases event with
  | message client message =>
      cases message with
      | saveYourselfDone success =>
          have hkey : client = key := eq_of_beq h
          simp [ManagerEvent.own, hkey, received]
      | _ => exact absurd h (by simp [ManagerEvent.isDone])
  | _ => exact absurd h (by simp [ManagerEvent.isDone])

/-- A client's own message takes the save in flight off its list, or may put a save of its own
state at the end. -/
theorem WellFormed.own (h : queue.WellFormed) (key : ClientKey) (event : ManagerEvent) :
    (event.own key queue).WellFormed
      ∧ ((event.isDone key = true ∧ (event.own key queue).toList = queue.toList.drop 1)
        ∨ (event.isDone key = false ∧ ∃ locals, (event.own key queue).toList = queue.toList ++ locals
          ∧ ∀ type ∈ locals, type = .local)) := by
  have hsame : event.isDone key = false → event.own key queue = queue →
      (event.own key queue).WellFormed
        ∧ ((event.isDone key = true ∧ (event.own key queue).toList = queue.toList.drop 1)
          ∨ (event.isDone key = false ∧ ∃ locals,
            (event.own key queue).toList = queue.toList ++ locals
            ∧ ∀ type ∈ locals, type = .local)) := by
    intro hdone hown
    rw [hown]
    exact ⟨h, .inr ⟨hdone, [], by simp, by simp⟩⟩
  cases event with
  | message client message =>
      by_cases hkey : client = key
      · subst hkey
        have hown : (ManagerEvent.message client message).own client queue =
            queue.received message := by simp [ManagerEvent.own]
        cases message with
        | saveYourselfDone success =>
            obtain ⟨hwf, hlist⟩ := h.complete
            rw [hown]
            exact ⟨hwf, .inl ⟨by simp [ManagerEvent.isDone], hlist⟩⟩
        | saveYourselfRequest saveType shutdown style fast isGlobal =>
            by_cases hlocal : shutdown = false ∧ isGlobal = false
            · obtain ⟨rfl, rfl⟩ := hlocal
              obtain ⟨hwf, hlist⟩ := h.request .local
              rw [hown]
              refine ⟨hwf, .inr ⟨rfl, ?_⟩⟩
              rcases hlist with hlist | hlist
              · exact ⟨[], by simpa [received] using hlist, by simp⟩
              · exact ⟨[.local], hlist, by simp⟩
            · refine hsame rfl (hown.trans ?_)
              cases shutdown <;> cases isGlobal
              · exact absurd ⟨rfl, rfl⟩ hlocal
              all_goals rfl
        | _ => exact hsame rfl hown
      · refine hsame ?_ (by simp [ManagerEvent.own, hkey])
        cases message with
        | saveYourselfDone success => simpa [ManagerEvent.isDone] using hkey
        | _ => rfl
  | _ => exact hsame rfl rfl

end SaveQueue

/-! ## What clients are told -/

theorem Participant.saveMessage_injective : Function.Injective Participant.saveMessage := by
  intro first second h
  cases first <;> cases second <;> first | rfl | exact absurd h (by simp [saveMessage])

theorem Participant.saveMessage_ne_die (type : SaveType) : saveMessage type ≠ .die := by
  cases type <;> simp [saveMessage]

theorem Participant.mem_map_saveMessage {saves : Option SaveType} {type : SaveType} :
    saveMessage type ∈ saves.toList.map saveMessage ↔ saves = some type := by
  cases saves with
  | none => simp
  | some asked => simp [saveMessage_injective.eq_iff, eq_comm]

/-- Requests for saves tell nobody to die. -/
theorem Participant.die_not_mem_map (saves : Option SaveType) :
    .die ∉ saves.toList.map saveMessage := by
  intro h
  obtain ⟨type, _, heq⟩ := List.mem_map.mp h
  exact saveMessage_ne_die type heq

namespace SaveQueue

variable {queue : SaveQueue} {key : ClientKey} {event : ManagerEvent} {type : SaveType}

/-- No client is told to die in answer to a message. -/
theorem die_not_mem_ownOrders : .die ∉ event.ownOrders key queue := by
  cases event with
  | message client message =>
      simp only [ManagerEvent.ownOrders]
      split
      · cases message with
        | saveYourselfDone success => exact Participant.die_not_mem_map _
        | saveYourselfRequest saveType shutdown style fast isGlobal =>
            cases shutdown <;> cases isGlobal
            · exact Participant.die_not_mem_map _
            all_goals exact List.not_mem_nil
        | _ => exact List.not_mem_nil
      · exact List.not_mem_nil
  | _ => exact List.not_mem_nil

/-- In answer to its message, a client is asked for a save that is not of its own state alone
when it is done with the one before. -/
theorem saveMessage_mem_ownOrders (htype : type ≠ .local) :
    Participant.saveMessage type ∈ event.ownOrders key queue ↔
      event.isDone key = true ∧ queue.next = some type := by
  cases event with
  | message client message =>
      by_cases hkey : client = key
      · subst hkey
        simp only [ManagerEvent.ownOrders, if_true]
        cases message with
        | saveYourselfDone success =>
            simp [receivedOrders, ManagerEvent.isDone, Participant.mem_map_saveMessage,
              -List.mem_map]
        | saveYourselfRequest saveType shutdown style fast isGlobal =>
            cases shutdown <;> cases isGlobal
            · simp only [receivedOrders, Participant.mem_map_saveMessage, ManagerEvent.isDone]
              constructor
              · intro h
                unfold request at h
                split at h
                · exact absurd h (by simp)
                · exact absurd h (by simp)
                · exact absurd (Option.some.inj h).symm htype
              · exact fun h => absurd h.1 (by simp)
            all_goals simp [receivedOrders, ManagerEvent.isDone]
        | _ => simp [receivedOrders, ManagerEvent.isDone]
      · cases message with
        | saveYourselfDone success => simp [ManagerEvent.ownOrders, ManagerEvent.isDone, hkey]
        | _ => simp [ManagerEvent.ownOrders, ManagerEvent.isDone, hkey]
  | _ => simp [ManagerEvent.ownOrders, ManagerEvent.isDone]

theorem mem_callOrders {call : ClientCall} {message : ManagerMessage}
    (h : message ∈ queue.callOrders call) : (message = .die ∧ call = .die)
      ∨ ∃ type, message = Participant.saveMessage type ∧ call.asks ≠ none := by
  unfold callOrders at h
  split at h
  · exact .inl ⟨List.mem_singleton.mp h, rfl⟩
  · split at h
    · rename_i hasks
      obtain ⟨type, _, heq⟩ := List.mem_map.mp h
      exact .inr ⟨type, heq.symm, by simp [hasks]⟩
    · exact absurd h List.not_mem_nil

/-- Whatever a client is ordered to do was called for. -/
theorem exists_of_mem_heardOrders {effects : List Effect} {message : ManagerMessage}
    (h : message ∈ queue.heardOrders key effects) :
    ∃ call, .called key call ∈ effects ∧ ((message = .die ∧ call = .die)
      ∨ ∃ type, message = Participant.saveMessage type ∧ call.asks ≠ none) := by
  induction effects generalizing queue with
  | nil => exact absurd h List.not_mem_nil
  | cons effect effects ih =>
      rcases List.mem_append.mp h with h | h
      · cases effect with
        | called client call =>
            by_cases hkey : client = key
            · subst hkey
              simp only [if_true] at h
              exact ⟨call, List.mem_cons_self, mem_callOrders h⟩
            · simp only [hkey, if_false] at h
              exact absurd h List.not_mem_nil
        | _ => exact absurd h List.not_mem_nil
      · obtain ⟨call, hmem, hcall⟩ := ih h
        exact ⟨call, List.mem_cons_of_mem effect hmem, hcall⟩

end SaveQueue

namespace Manager

variable {w : Surroundings} {manager : Manager} {event : ManagerEvent} {turn : ManagerTurn}
  {operation : Session.Operation} {key : ClientKey} {queue : SaveQueue}
  {base : List SaveType} {reports : Nat}

/-! ## What a client is waited for -/

/-- In every state, nothing waits in a queue while nothing is in flight. -/
theorem wellFormed_reachable (h : Reachable manager) :
    ∀ key queue, manager.saves? key = some queue → queue.WellFormed := by
  induction h with
  | init w manifests ids name phaseTimeout handshakeTimeout =>
      intro key queue hqueue
      unfold start at hqueue
      rw [saves?_follow] at hqueue
      exact absurd hqueue (by simp [saves?, KeyMap.empty, KeyMap.get?])
  | @tail manager step hreach ih =>
      obtain ⟨hinv, _, w', hhandled⟩ := hreach.handled step
      intro key queue hqueue
      rw [hhandled.saves key queue hqueue]
      refine SaveQueue.WellFormed.heardAll ?_ key _
      have hold : ((manager.saves? key).getD .empty).WellFormed := by
        cases hget : manager.saves? key with
        | none => exact fun _ => rfl
        | some old => exact ih key old hget
      exact (hold.own key step.2).1

/-- A client discharges itself, short of leaving, by reporting a save that was not of its own
state alone. -/
theorem isDone_of_discharges (hasked : manager.asked? event = some operation)
    (hdis : operation.discharges key = true) (hstay : operation ≠ .report key .disconnected)
    (hqueue : manager.saves? key = some queue) :
    event.isDone key = true ∧ queue.current ≠ some .local := by
  have hop := (Session.eq_of_discharges hdis).resolve_right hstay
  subst hop
  cases asked_of_some hasked with
  | report hget hreported =>
      obtain ⟨⟨success, rfl⟩, hcurrent⟩ := Participant.reported_saveYourselfDone.mp hreported
      rw [saves?, hget] at hqueue
      obtain rfl := Option.some.inj hqueue
      exact ⟨by simp [ManagerEvent.isDone], hcurrent⟩

/-- Whoever is told to die is told so because the session calls for it. -/
theorem called_of_sent_die (h : Handled w manager event turn)
    (hdie : .sent key .die ∈ turn.actions) :
    .called key .die ∈ (sessionTurn w manager event).effects := by
  have hmem := (mem_orders rfl).mpr hdie
  by_cases hknown : key ∈ manager.session.clients.keys ∨ key ∈ turn.manager.session.clients.keys
  · rw [h.orders key hknown] at hmem
    rcases List.mem_append.mp hmem with hmem | hmem
    · exact absurd hmem SaveQueue.die_not_mem_ownOrders
    · obtain ⟨call, hcall, ⟨_, rfl⟩ | ⟨type, heq, _⟩⟩ := SaveQueue.exists_of_mem_heardOrders hmem
      · exact hcall
      · exact absurd heq.symm (Participant.saveMessage_ne_die type)
  · rw [h.strangers key (fun hk => hknown (.inl hk)) (fun hk => hknown (.inr hk))] at hmem
    exact absurd hmem List.not_mem_nil

/-- In the middle of a logout the session asks nobody for a save. -/
theorem asks_of_logout (hinv : Session.LogoutInv manager.session)
    (hphase : manager.session.phase = .shutdown) {call : ClientCall}
    (hcall : .called key call ∈ (sessionTurn w manager event).effects) : call.asks = none := by
  unfold sessionTurn at hcall
  split at hcall
  · rcases Session.calls_perform hinv hphase hcall with rfl | rfl | rfl | rfl <;> rfl
  · exact absurd hcall List.not_mem_nil

/-- In the middle of a logout the session asks for no further save. What happens to the queue
of a client that stays is its own doing, and so is what it is asked for. -/
theorem own_handled (hinv : Session.LogoutInv manager.session)
    (hphase : manager.session.phase = .shutdown) (h : Handled w manager event turn)
    (hkey : key ∈ turn.manager.session.clients.keys) (hqueue : manager.saves? key = some queue) :
    turn.manager.saves? key = some (event.own key queue)
      ∧ ∀ type, type ≠ .local →
        (.sent key (Participant.saveMessage type) ∈ turn.actions ↔
          event.isDone key = true ∧ queue.next = some type) := by
  have hquiet : ∀ call, .called key call ∈ (sessionTurn w manager event).effects →
      call.asks = none := fun _ => asks_of_logout hinv hphase
  constructor
  · obtain ⟨next, hnext⟩ := Option.isSome_iff_exists.mp ((h.registered key).mpr hkey)
    have hsaves := h.saves key next hnext
    rw [hqueue, SaveQueue.heardAll_of_quiet key _ hquiet] at hsaves
    rw [hnext, hsaves]
    rfl
  · intro type htype
    rw [← mem_orders (Participant.saveMessage_isOrder type), h.orders key (.inr hkey), hqueue,
      Option.getD_some, List.mem_append, SaveQueue.saveMessage_mem_ownOrders htype]
    -- what the session calls for is no save, so the request is the client's own
    refine or_iff_left fun hmem => ?_
    obtain ⟨call, hcall, ⟨heq, _⟩ | ⟨_, _, hasks⟩⟩ := SaveQueue.exists_of_mem_heardOrders hmem
    · exact absurd heq (Participant.saveMessage_ne_die type)
    · exact hasks (hquiet call hcall)

/-- What is known of a registered client some reports into a round. -/
structure SavesAt (base : List SaveType) (reports : Nat) (key : ClientKey) (manager : Manager) :
    Prop where
  /-- The saves that the round began with are taken off from the front, and saves of the
  client's own state come behind them. -/
  queue : ∃ queue locals, manager.saves? key = some queue ∧ queue.WellFormed
    ∧ queue.toList = base.drop reports ++ locals ∧ ∀ type ∈ locals, type = .local
  /-- The client is waited for while it has reported no other saves than of its own state. -/
  owes : reports ≤ base.length → (∀ type ∈ base.take reports, type = .local) →
    Session.Owes manager.session key

/-- **An event in the middle of a logout keeps what is known of a client that stays.** -/
theorem savesAt_handled (hinv : Session.LogoutInv manager.session)
    (hphase : manager.session.phase = .shutdown) (h : Handled w manager event turn)
    (hstays : turn.manager.session.phase = .shutdown)
    (hkey : key ∈ turn.manager.session.clients.keys) (hsaves : SavesAt base reports key manager) :
    SavesAt base (reports + if event.isDone key = true then 1 else 0) key turn.manager := by
  obtain ⟨queue, locals, hqueue, hwf, hlist, hlocals⟩ := hsaves.queue
  have hnext := (own_handled hinv hphase h hkey hqueue).1
  obtain ⟨hwf', hcases⟩ := hwf.own key event
  -- what the client owes it goes on owing unless this event discharges it
  have howes : Session.Owes manager.session key →
      (event.isDone key = true → queue.current = some .local) →
        Session.Owes turn.manager.session key := by
    intro hold hlocal
    rw [h.session] at hstays hkey ⊢
    unfold sessionTurn at hstays hkey ⊢
    split
    · rename_i operation hasked
      simp only [hasked] at hstays hkey
      have hgoes : operation ≠ .report key .disconnected := by
        rcases (Session.clients_perform hinv key).mp hkey with ⟨_, hne⟩ | ⟨_, _, _, heq, _⟩
        · exact hne
        · rw [heq]
          simp
      refine (Session.owes_perform hinv hphase hstays key).mpr ⟨hold, ?_⟩
      by_contra hdis
      obtain ⟨hdone, hcurrent⟩ := isDone_of_discharges hasked (by simpa using hdis) hgoes hqueue
      exact hcurrent (hlocal hdone)
    · exact hold
  rcases hcases with ⟨hdone, hafter⟩ | ⟨hdone, more, hafter, hmore⟩
  · -- once the saves of the round are used up, reports are about local ones
    rw [if_pos hdone]
    refine ⟨⟨_, locals.drop (1 - (base.drop reports).length), hnext, hwf', ?_, ?_⟩, ?_⟩
    · rw [hafter, hlist, List.drop_append, List.drop_drop]
    · exact fun type htype => hlocals type (List.mem_of_mem_drop htype)
    · intro hle hall
      have htake : ∀ type ∈ base.take reports, type = .local := by
        intro type htype
        exact hall type (List.take_subset_take_left base (Nat.le_succ reports) htype)
      refine howes (hsaves.owes (by omega) htake) fun _ => ?_
      -- the save reported now is among those the round began with, so it was a local one
      have hlt : reports < base.length := by omega
      have hhead : queue.current = some base[reports] := by
        rw [← hwf.head?, hlist, List.drop_eq_getElem_cons hlt]
        rfl
      rw [hhead]
      refine congrArg some (hall base[reports] ?_)
      rw [List.take_succ_eq_append_getElem hlt]
      exact List.mem_append_right _ List.mem_cons_self
  · rw [if_neg (by simp [hdone]), Nat.add_zero]
    refine ⟨⟨_, locals ++ more, hnext, hwf', ?_, ?_⟩, ?_⟩
    · rw [hafter, hlist, List.append_assoc]
    · intro type htype
      rcases List.mem_append.mp htype with htype | htype
      · exact hlocals type htype
      · exact hmore type htype
    · intro hle hall
      exact howes (hsaves.owes hle hall) fun h => absurd h (by simp [hdone])

end Manager

end Xsmp
