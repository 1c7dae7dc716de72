import Xsmp.Proofs.Manager.Relay
import Xsmp.Session.Operation

/-!
# What an event asks for

A client's own message may change its queue of saves, and an event asks the
session for at most one operation. Both are read off the event and the state that
it finds, before anything is done about it.
-/

namespace Xsmp

/-! ## What clients say -/

/-- A client's queue after one of its messages. -/
def SaveQueue.received (queue : SaveQueue) : ClientMessage → SaveQueue
  | .saveYourselfRequest _ false _ _ false => (queue.request .local).2
  | .saveYourselfDone _ => queue.complete.2
  | _ => queue

/-- What a client is ordered to do in answer to one of its messages. -/
def SaveQueue.receivedOrders (queue : SaveQueue) : ClientMessage → List ManagerMessage
  | .saveYourselfRequest _ false _ _ false =>
    (queue.request .local).1.toList.map Participant.saveMessage
  | .saveYourselfDone _ => queue.next.toList.map Participant.saveMessage
  | _ => []

/-- A client's queue after an event, before the session has had its say. -/
def ManagerEvent.own (key : ClientKey) (event : ManagerEvent) (queue : SaveQueue) : SaveQueue :=
  match event with
  | .message client said => if client = key then queue.received said else queue
  | _ => queue

/-- What a client is ordered to do by an event, before the session has had its say. -/
def ManagerEvent.ownOrders (key : ClientKey) (event : ManagerEvent) (queue : SaveQueue) :
    List ManagerMessage :=
  match event with
  | .message client said => if client = key then queue.receivedOrders said else []
  | _ => []

namespace Participant

variable {participant : Participant} {message : ClientMessage}

theorem received_saves (participant : Participant) (message : ClientMessage) :
    (participant.received message).participant.saves = participant.saves.received message := by
  cases message with
  | saveYourselfRequest saveType shutdown style fast isGlobal =>
      cases shutdown <;> cases isGlobal <;> rfl
  | saveYourselfPhase2Request =>
      simp only [received]
      split <;> rfl
  | saveYourselfDone success =>
      simp only [received, saveDone]
      split <;> rfl
  | setProperties properties =>
      simp only [received, setProperties]
      split <;> rfl
  | deleteProperties names =>
      simp only [received, deleteProperties]
      split <;> rfl
  | _ => rfl

theorem received_orders (participant : Participant) (message : ClientMessage) :
    (participant.received message).sent.filter ManagerMessage.isOrder =
      participant.saves.receivedOrders message := by
  cases message with
  | saveYourselfRequest saveType shutdown style fast isGlobal =>
      cases shutdown <;> cases isGlobal
      · exact filter_saveMessage _
      all_goals rfl
  | saveYourselfPhase2Request =>
      simp only [received]
      split <;> rfl
  | saveYourselfDone success =>
      simp only [received, saveDone]
      split
      · -- word that the save is complete comes before the next request, and is no order
        show List.filter _ (_ :: _) = _
        rw [List.filter_cons_of_neg (by simp [ManagerMessage.isOrder])]
        exact filter_saveMessage _
      · exact filter_saveMessage _
  | _ => rfl

/-- A client reports that its save for the logout is done when it says that it is done with a
save and that was not one of its own state. -/
theorem reported_saveYourselfDone :
    (participant.received message).reported = some .saveYourselfDone ↔
      (∃ success, message = .saveYourselfDone success)
        ∧ participant.saves.current ≠ some .local := by
  cases message with
  | saveYourselfRequest saveType shutdown style fast isGlobal =>
      cases shutdown <;> cases isGlobal <;> simp [received, requestSave]
  | saveYourselfPhase2Request =>
      simp only [received]
      split <;> simp
  | saveYourselfDone success =>
      by_cases hcurrent : participant.saves.current = some .local
      · simp [received, saveDone, SaveQueue.complete, hcurrent]
      · simp [received, saveDone, SaveQueue.complete, hcurrent]
  | _ => simp [received]

end Participant

namespace Manager

open Session (Operation perform)

variable {w : Surroundings} {manager : Manager} {event : ManagerEvent} {operation : Operation}

/-! ## What is asked of the session -/

/-- The operation that an event asks of the session. -/
def asked? (manager : Manager) : ManagerEvent → Option Operation
  | .accepted | .handshakeTimeout | .control .ping | .control .status => none
  | .message key message =>
    if manager.handshakes.contains key then
      match message with
      | .registerClient previousId => some (.register key previousId)
      | _ => none
    else (manager.participants.get? key).bind fun participant =>
      (participant.received message).reported.map (.report key)
  | .closed key =>
    if manager.handshakes.contains key then none else some (.report key .disconnected)
  | .control .logout => some .beginShutdown
  | .control .cancelLogout => some .cancelShutdown
  | .control .checkpoint => some .checkpoint
  | .programExited pid => some (.programExited pid)
  | .phaseTimeout => some .timeout
  | .signal =>
    some (if manager.session.phase = .shutdown then .forceShutdown else .beginShutdown)

/-- What the session does about an event. -/
def sessionTurn (w : Surroundings) (manager : Manager) (event : ManagerEvent) : Turn :=
  match manager.asked? event with
  | some operation => perform w operation manager.session
  | none => { session := manager.session }

theorem sessionTurn_of_some (h : manager.asked? event = some operation) :
    sessionTurn w manager event = perform w operation manager.session := by
  rw [sessionTurn, h]

theorem sessionTurn_of_none (h : manager.asked? event = none) :
    sessionTurn w manager event = { session := manager.session } := by
  rw [sessionTurn, h]

inductive Asked (manager : Manager) : ManagerEvent → Operation → Prop
  | register {key : ClientKey} {handshake : Handshake} (previousId : Option String)
      (waits : manager.handshakes.get? key = some handshake) :
      Asked manager (.message key (.registerClient previousId)) (.register key previousId)
  | report {key : ClientKey} {participant : Participant} {message : ClientMessage}
      {event : ClientEvent} (registered : manager.participants.get? key = some participant)
      (reported : (participant.received message).reported = some event) :
      Asked manager (.message key message) (.report key event)
  | closed (key : ClientKey) : Asked manager (.closed key) (.report key .disconnected)
  | logout : Asked manager (.control .logout) .beginShutdown
  | cancelLogout : Asked manager (.control .cancelLogout) .cancelShutdown
  | checkpoint : Asked manager (.control .checkpoint) .checkpoint
  | programExited (pid : Pid) : Asked manager (.programExited pid) (.programExited pid)
  | phaseTimeout : Asked manager .phaseTimeout .timeout
  /-- During a logout a signal cuts it short. -/
  | cuts : Asked manager .signal .forceShutdown
  | begins : Asked manager .signal .beginShutdown

theorem asked_of_some (h : manager.asked? event = some operation) :
    Asked manager event operation := by
  cases event with
  | message client message =>
      -- who waits to register can ask for that only, and everybody else for what they report
      by_cases hwaits : manager.handshakes.contains client = true
      · obtain ⟨handshake, hget⟩ := Option.isSome_iff_exists.mp hwaits
        simp only [asked?, hwaits, if_true] at h
        split at h
        · exact Option.some.inj h ▸ .register _ hget
        · exact absurd h (by simp)
      · simp only [asked?, hwaits, Bool.false_eq_true, if_false] at h
        obtain ⟨participant, hget, h⟩ := Option.bind_eq_some_iff.mp h
        obtain ⟨reported, hreported, heq⟩ := Option.map_eq_some_iff.mp h
        exact heq ▸ .report hget hreported
  | closed client =>
      simp only [asked?] at h
      split at h
      · exact absurd h (by simp)
      · exact Option.some.inj h ▸ .closed client
  | control request =>
      cases request with
      | ping => exact absurd h (by simp [asked?])
      | status => exact absurd h (by simp [asked?])
      | logout => exact Option.some.inj h ▸ .logout
      | cancelLogout => exact Option.some.inj h ▸ .cancelLogout
      | checkpoint => exact Option.some.inj h ▸ .checkpoint
  | programExited pid => exact Option.some.inj h ▸ .programExited pid
  | phaseTimeout => exact Option.some.inj h ▸ .phaseTimeout
  | signal =>
      simp only [asked?] at h
      split at h
      · exact Option.some.inj h ▸ .cuts
      · exact Option.some.inj h ▸ .begins
  | accepted => exact absurd h (by simp [asked?])
  | handshakeTimeout => exact absurd h (by simp [asked?])

theorem Asked.signal_of_force (h : Asked manager event .forceShutdown) : event = .signal := by
  cases h
  rfl

end Manager

end Xsmp
