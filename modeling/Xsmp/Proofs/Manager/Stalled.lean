import Xsmp.Proofs.Manager.MidSave
import Xsmp.Proofs.Manager.Said

/-!
# Who can hold up a logout

A client has room for two saves, the one it works on and one more. A logout asks
every client for a save and waits for all of them, but a client that has no room
for that save never hears of it: the request is dropped, and the client is waited
for all the same. This module says that there is no other way to be waited for in
vain. As long as no logout is cancelled, a client that is waited for has the save
of the logout in its queue exactly if its queue had room for it when the logout
began, and a client that had no room is never asked to save and quit.

Two facts are carried through a run. Until a client is asked by a logout, it has
saves of its own state only (`Unasked`). And whoever has been asked and is still
waited for has that save in its queue (`Awaited`).
-/

namespace Xsmp

/-- Whether a message asks a client to save and quit. -/
def ManagerMessage.asksToQuit : ManagerMessage → Bool
  | .saveYourself _ shutdown _ _ => shutdown
  | _ => false

/-- A client puts its save off by asking for the second phase while it is not at a save of its
own state. -/
theorem Participant.reported_requestPhase2 {participant : Participant} {message : ClientMessage} :
    (participant.received message).reported = some .requestPhase2 ↔
      message = .saveYourselfPhase2Request ∧ participant.saves.current ≠ some .local := by
  cases message with
  | saveYourselfRequest saveType shutdown style fast isGlobal =>
      cases shutdown <;> cases isGlobal <;> simp [received, requestSave]
  | saveYourselfPhase2Request =>
      by_cases hcurrent : participant.saves.current = some .local
      · simp [received, hcurrent]
      · simp [received, hcurrent]
  | saveYourselfDone success =>
      simp only [received, saveDone]
      split <;> simp
  | _ => simp [received]

/-! ## Queues -/

namespace SaveQueue

variable {queue : SaveQueue} {key : ClientKey} {event : ManagerEvent} {call : ClientCall}
  {effects : List Effect} {message : ManagerMessage} {type : SaveType}

theorem mem_toList : type ∈ queue.toList ↔ queue.current = some type ∨ queue.next = some type := by
  simp [toList]

theorem unsaved_iff : ¬queue.Unsaved ↔ ∀ type ∈ queue.toList, type = .local := by
  simp [Unsaved]

/-- A client's own message brings no save for a logout. -/
theorem not_unsaved_own (hwf : queue.WellFormed) (h : ¬queue.Unsaved) :
    ¬(event.own key queue).Unsaved := by
  rw [unsaved_iff] at h ⊢
  intro type htype
  rcases (hwf.own key event).2 with ⟨_, hlist⟩ | ⟨_, locals, hlist, hlocals⟩
  · rw [hlist] at htype
    exact h type (List.mem_of_mem_drop htype)
  · rw [hlist] at htype
    rcases List.mem_append.mp htype with htype | htype
    · exact h type htype
    · exact hlocals type htype

/-- A client is asked now for what is requested now. -/
theorem eq_of_request {asked : SaveType} (h : (queue.request type).1 = some asked) :
    asked = type := by
  unfold request at h
  split at h
  · exact absurd h (by simp)
  · exact absurd h (by simp)
  · exact (Option.some.inj h).symm

/-- A request that finds no room is dropped. -/
theorem request_of_full (hfull : queue.next ≠ none) (type : SaveType) :
    queue.request type = (none, queue) := by
  obtain ⟨waiting, hnext⟩ := Option.ne_none_iff_exists'.mp hfull
  simp only [request, hnext]

theorem callOrders_of_asks (h : call.asks = some type) :
    queue.callOrders call = (queue.request type).1.toList.map Participant.saveMessage := by
  cases call with
  | die => exact absurd h (by simp [ClientCall.asks])
  | _ => simp only [callOrders, h]

/-- A call that asks for no save asks nobody to quit. -/
theorem asksToQuit_of_asks_none (queue : SaveQueue) (h : call.asks = none) :
    queue.called call = queue ∧ ∀ message ∈ queue.callOrders call, message.asksToQuit = false := by
  refine ⟨by simp only [called, h], fun message hmem => ?_⟩
  rcases mem_callOrders hmem with ⟨rfl, _⟩ | ⟨_, _, hasks⟩
  · rfl
  · exact absurd h hasks

/-- In answer to its own message a client is asked for what waits, or for its own state. -/
theorem mem_ownOrders (h : message ∈ event.ownOrders key queue) :
    ∃ type, message = Participant.saveMessage type ∧ (type = .local ∨ queue.next = some type) := by
  cases event with
  | message client said =>
      simp only [ManagerEvent.ownOrders] at h
      split at h
      · cases said with
        | saveYourselfDone success =>
            obtain ⟨type, htype, rfl⟩ := List.mem_map.mp h
            exact ⟨type, rfl, .inr (Option.mem_toList.mp htype)⟩
        | saveYourselfRequest saveType shutdown style fast isGlobal =>
            cases shutdown <;> cases isGlobal
            · obtain ⟨type, htype, rfl⟩ := List.mem_map.mp h
              exact ⟨type, rfl, .inl (eq_of_request (Option.mem_toList.mp htype))⟩
            all_goals exact absurd h List.not_mem_nil
        | _ => exact absurd h List.not_mem_nil
      · exact absurd h List.not_mem_nil
  | _ => exact absurd h List.not_mem_nil

theorem asksToQuit_ownOrders (hlocal : ¬queue.Unsaved) (h : message ∈ event.ownOrders key queue) :
    message.asksToQuit = false := by
  obtain ⟨type, rfl, htype⟩ := mem_ownOrders h
  have heq : type = .local := by
    rcases htype with heq | hnext
    · exact heq
    · exact unsaved_iff.mp hlocal type (mem_toList.mpr (.inr hnext))
  rw [heq]
  rfl

/-- What holds of a queue, and goes on holding with every call that asks nobody to quit, holds
after all of them. -/
theorem heardAll_induction (key : ClientKey) (effects : List Effect) (holds : SaveQueue → Prop)
    (h : holds queue)
    (hcall : ∀ queue call, holds queue → .called key call ∈ effects →
      holds (queue.called call)
        ∧ ∀ message ∈ queue.callOrders call, message.asksToQuit = false) :
    holds (queue.heardAll key effects)
      ∧ ∀ message ∈ queue.heardOrders key effects, message.asksToQuit = false := by
  induction effects generalizing queue with
  | nil => exact ⟨h, fun _ hmem => absurd hmem List.not_mem_nil⟩
  | cons effect effects ih =>
      have hhead : holds (queue.heard key effect)
          ∧ ∀ message ∈ queue.heardOrders key [effect], message.asksToQuit = false := by
        cases effect with
        | called client call =>
            by_cases hkey : client = key
            · subst hkey
              simpa [heard, heardOrders] using hcall queue call h List.mem_cons_self
            · simpa [heard, heardOrders, hkey] using h
        | _ => simpa [heard, heardOrders] using h
      obtain ⟨hrest, horders⟩ := ih hhead.1 fun queue call hold hmem =>
        hcall queue call hold (List.mem_cons_of_mem effect hmem)
      refine ⟨hrest, fun message hmem => ?_⟩
      rcases List.mem_append.mp hmem with hmem | hmem
      · exact hhead.2 message (List.mem_append_left _ hmem)
      · exact horders message hmem

/-- Calls for saves of a client's own state leave it with such saves only. -/
theorem heardAll_local (hwf : queue.WellFormed) (hlocal : ¬queue.Unsaved)
    (hasks : ∀ call, .called key call ∈ effects → ∀ type, call.asks = some type → type = .local) :
    ¬(queue.heardAll key effects).Unsaved
      ∧ ∀ message ∈ queue.heardOrders key effects, message.asksToQuit = false := by
  have h := heardAll_induction key effects (fun queue => queue.WellFormed ∧ ¬queue.Unsaved)
    ⟨hwf, hlocal⟩ ?_
  · exact ⟨h.1.2, h.2⟩
  intro queue call ⟨hwf, hlocal⟩ hmem
  cases hcall : call.asks with
  | none =>
      obtain ⟨hsame, horders⟩ := asksToQuit_of_asks_none queue hcall
      rw [hsame]
      exact ⟨⟨hwf, hlocal⟩, horders⟩
  | some type =>
      obtain rfl := hasks call hmem type hcall
      refine ⟨⟨hwf.called call, ?_⟩, fun message hmessage => ?_⟩
      · rw [unsaved_iff] at hlocal ⊢
        simp only [called, hcall]
        intro type htype
        rcases (hwf.request .local).2 with hlist | hlist
        · exact hlocal type (hlist ▸ htype)
        · rw [hlist] at htype
          rcases List.mem_append.mp htype with htype | htype
          · exact hlocal type htype
          · exact List.mem_singleton.mp htype
      · rw [callOrders_of_asks hcall] at hmessage
        obtain ⟨type, htype, rfl⟩ := List.mem_map.mp hmessage
        rw [eq_of_request (Option.mem_toList.mp htype)]
        rfl

/-- A client that has no room for another save is asked for none. -/
theorem heardAll_full (key : ClientKey) (effects : List Effect) (hfull : queue.next ≠ none) :
    queue.heardAll key effects = queue
      ∧ ∀ message ∈ queue.heardOrders key effects, message.asksToQuit = false := by
  refine heardAll_induction key effects (· = queue) rfl ?_
  rintro _ call rfl _
  cases hcall : call.asks with
  | none => exact asksToQuit_of_asks_none _ hcall
  | some type =>
      rw [callOrders_of_asks hcall, called, hcall]
      simp [request_of_full hfull]

end SaveQueue

namespace Manager

open Session (LogoutInv)

variable {w : Surroundings} {manager : Manager} {event : ManagerEvent} {turn : ManagerTurn}
  {first step : Step} {before after steps later : List Step} {key : ClientKey}
  {begun queue : SaveQueue}

/-! ## Runs that cancel no logout -/

/-- No event cancels a logout. -/
def Uncancelled : Manager → List Step → Prop
  | _, [] => True
  | manager, step :: steps =>
    (manager.session.phase = .shutdown → (take step manager).manager.session.phase = .shutdown)
      ∧ Uncancelled (take step manager).manager steps

theorem uncancelled_append : Uncancelled manager (before ++ after) ↔
    Uncancelled manager before ∧ Uncancelled (handleEach manager before).manager after := by
  induction before generalizing manager with
  | nil => simp [Uncancelled, handleEach]
  | cons step before ih =>
      simp only [List.cons_append, Uncancelled, ih, and_assoc]
      rfl

/-- A logout that nobody cancels goes on. -/
theorem Uncancelled.lasts (h : Uncancelled manager steps)
    (hphase : manager.session.phase = .shutdown) :
    Lasts manager steps ∧ (handleEach manager steps).manager.session.phase = .shutdown := by
  induction steps generalizing manager with
  | nil => exact ⟨trivial, hphase⟩
  | cons step steps ih =>
      obtain ⟨hlasts, hend⟩ := ih h.2 (h.1 hphase)
      exact ⟨⟨hphase, hlasts⟩, hend⟩

/-! ## Before a logout asks -/

/-- No action asks a client to save and quit. -/
def Unbidden (key : ClientKey) (actions : List ManagerAction) : Prop :=
  ∀ message, .sent key message ∈ actions → message.asksToQuit = false

/-- A client, if it is there, has saves of its own state only. -/
def Unasked (key : ClientKey) (manager : Manager) : Prop :=
  ∀ queue, manager.saves? key = some queue → ¬queue.Unsaved

theorem Unbidden.append {actions more : List ManagerAction} (h : Unbidden key actions)
    (hmore : Unbidden key more) : Unbidden key (actions ++ more) := by
  intro message hmem
  rcases List.mem_append.mp hmem with hmem | hmem
  · exact h message hmem
  · exact hmore message hmem

theorem isOrder_of_asksToQuit {message : ManagerMessage} (h : message.asksToQuit = true) :
    message.isOrder = true := by
  cases message <;> first | rfl | exact absurd h (by simp [ManagerMessage.asksToQuit])

/-- What an event sends is what a client's own message and then the session order. -/
theorem unbidden_handled (h : Handled w manager event turn)
    (hown : ∀ message ∈ event.ownOrders key ((manager.saves? key).getD .empty),
      message.asksToQuit = false)
    (hheard : ∀ message ∈ (event.own key ((manager.saves? key).getD .empty)).heardOrders key
      (sessionTurn w manager event).effects, message.asksToQuit = false) :
    Unbidden key turn.actions := by
  intro message hmem
  by_contra hquits
  have horder := (mem_orders (isOrder_of_asksToQuit (by simpa using hquits))).mpr hmem
  by_cases hknown : key ∈ manager.session.clients.keys ∨ key ∈ turn.manager.session.clients.keys
  · rw [h.orders key hknown] at horder
    rcases List.mem_append.mp horder with horder | horder
    · exact hquits (hown message horder)
    · exact hquits (hheard message horder)
  · rw [h.strangers key (fun hkey => hknown (.inl hkey)) fun hkey => hknown (.inr hkey)] at horder
    exact absurd horder List.not_mem_nil

/-- An event for which the session asks a client for saves of its own state at most leaves it
with such saves, and does not ask it to quit. -/
theorem unasked_handled (h : Handled w manager event turn)
    (hwf : ∀ queue, manager.saves? key = some queue → queue.WellFormed)
    (hasks : ∀ call, .called key call ∈ (sessionTurn w manager event).effects →
      ∀ type, call.asks = some type → type = .local)
    (hunasked : Unasked key manager) : Unasked key turn.manager ∧ Unbidden key turn.actions := by
  have hold : ((manager.saves? key).getD .empty).WellFormed
      ∧ ¬((manager.saves? key).getD .empty).Unsaved := by
    cases hget : manager.saves? key with
    | none => exact ⟨fun _ => rfl, by simp [SaveQueue.Unsaved, SaveQueue.toList, SaveQueue.empty]⟩
    | some queue => exact ⟨hwf queue hget, hunasked queue hget⟩
  obtain ⟨hnext, horders⟩ := SaveQueue.heardAll_local (hold.1.own key event).1
    (SaveQueue.not_unsaved_own hold.1 hold.2) hasks
  refine ⟨fun queue hqueue => ?_, unbidden_handled h ?_ horders⟩
  · rw [h.saves key queue hqueue]
    exact hnext
  · exact fun message hmem => SaveQueue.asksToQuit_ownOrders hold.2 hmem

/-- Outside of a logout a call asks for a save of the client's own state at most. -/
theorem asks_of_isCalm {call : ClientCall} (hcalm : (Effect.called key call).isCalm = true)
    {type : SaveType} (hasks : call.asks = some type) : type = .local := by
  cases call with
  | registered clientId resumed =>
      cases resumed with
      | false => exact (Option.some.inj hasks).symm
      | true => exact absurd hasks (by simp [ClientCall.asks])
  | saveState => exact (Option.some.inj hasks).symm
  | saveYourself full => exact absurd hcalm (by simp [Effect.isCalm])
  | _ => exact absurd hasks (by simp [ClientCall.asks])

/-- An event that does not begin a logout leaves a client unasked. -/
theorem unasked_step (hreach : Reachable manager)
    (hquiet : manager.session.phase = .shutdown
      ∨ (take step manager).manager.session.phase ≠ .shutdown)
    (hunasked : Unasked key manager) :
    Unasked key (take step manager).manager ∧ Unbidden key (take step manager).actions := by
  obtain ⟨hinv, _, w', h⟩ := hreach.handled step
  refine unasked_handled h (wellFormed_reachable hreach key) ?_ hunasked
  intro call hcall type hasks
  by_cases hphase : manager.session.phase = .shutdown
  · exact absurd hasks (by simp [asks_of_logout hinv hphase hcall])
  · have hafter := hquiet.resolve_left hphase
    rw [h.session] at hafter
    unfold sessionTurn at hafter hcall
    split at hcall
    · rename_i operation hasked
      simp only [hasked] at hafter
      cases Session.calmStep w' (hinv.isCalm hphase) operation with
      | begins _ hturn =>
          rw [hturn] at hafter
          exact absurd (Session.phase_beginShutdown hphase) hafter
      | stays _ heffects _ => exact asks_of_isCalm (heffects _ hcall) hasks
    · exact absurd hcall List.not_mem_nil

/-- As long as no logout begins, a client is left unasked. -/
theorem unasked_run (hreach : Reachable manager) (hkept : Uncancelled manager steps)
    (hquiet : manager.session.phase = .shutdown
      ∨ (handleEach manager steps).manager.session.phase ≠ .shutdown)
    (hunasked : Unasked key manager) :
    Unasked key (handleEach manager steps).manager
      ∧ Unbidden key (handleEach manager steps).actions := by
  induction steps generalizing manager with
  | nil => exact ⟨hunasked, fun _ hmem => absurd hmem List.not_mem_nil⟩
  | cons step steps ih =>
      -- a logout that had begun would go on to the end
      have hnext : manager.session.phase = .shutdown
          ∨ (take step manager).manager.session.phase ≠ .shutdown :=
        hquiet.imp_right fun hend hphase => hend (hkept.2.lasts hphase).2
      obtain ⟨hstep, hunbidden⟩ := unasked_step hreach hnext hunasked
      obtain ⟨hrest, hsilent⟩ := ih (hreach.tail step) hkept.2 (hquiet.imp_left hkept.1) hstep
      exact ⟨hrest, hunbidden.append hsilent⟩

/-! ## Clients without room -/

/-- A client without room gets no more saves by what it says, short of being done with one. -/
theorem own_of_full (hfull : queue.next ≠ none) (hdone : event.isDone key = false) :
    event.own key queue = queue := by
  cases event with
  | message client message =>
      by_cases hkey : client = key
      · subst hkey
        simp only [ManagerEvent.own, if_true]
        cases message with
        | saveYourselfDone success => exact absurd hdone (by simp [ManagerEvent.isDone])
        | saveYourselfRequest saveType shutdown style fast isGlobal =>
            cases shutdown <;> cases isGlobal
            · simp only [SaveQueue.received, SaveQueue.request_of_full hfull]
            all_goals rfl
        | _ => rfl
      · simp only [ManagerEvent.own, hkey, if_false]
  | _ => rfl

/-- A client without room is not asked by a logout that begins. -/
theorem unasked_full (hreach : Reachable manager) (hdone : step.2.isDone key = false)
    (hqueue : manager.saves? key = some queue) (hfull : queue.next ≠ none)
    (hunasked : Unasked key manager) :
    Unasked key (take step manager).manager ∧ Unbidden key (take step manager).actions := by
  obtain ⟨_, _, w', h⟩ := hreach.handled step
  have hown := own_of_full hfull hdone
  obtain ⟨hsame, horders⟩ := SaveQueue.heardAll_full key
    (sessionTurn w' manager step.2).effects hfull
  refine ⟨fun next hnext => ?_, unbidden_handled h ?_ ?_⟩
  · rw [h.saves key next hnext, hqueue, Option.getD_some, hown, hsame]
    exact hunasked queue hqueue
  · rw [hqueue]
    exact fun message hmem => SaveQueue.asksToQuit_ownOrders (hunasked queue hqueue) hmem
  · rw [hqueue, Option.getD_some, hown]
    exact horders

/-! ## Clients with room -/

/-- A client that is waited for has the save of the logout in its queue. -/
def Awaited (key : ClientKey) (manager : Manager) : Prop :=
  key ∈ manager.session.saving →
    ∃ queue, manager.saves? key = some queue ∧ .global ∈ queue.toList

/-- A client that is done with another save than one of its own state reports so. -/
theorem asked?_of_isDone (hbooks : Books manager) (hkey : key ∈ manager.session.clients.keys)
    (hdone : event.isDone key = true) (hqueue : manager.saves? key = some queue)
    (hcurrent : queue.current ≠ some .local) :
    manager.asked? event = some (.report key .saveYourselfDone) := by
  cases event with
  | message client message =>
      cases message with
      | saveYourselfDone success =>
          obtain rfl : client = key := eq_of_beq hdone
          obtain ⟨participant, hget, rfl⟩ := Option.map_eq_some_iff.mp hqueue
          have hwaits : manager.handshakes.contains client = false := by
            by_contra hwaits
            have hthere : manager.handshakes.contains client = true := by simpa using hwaits
            obtain ⟨handshake, hhand⟩ := Option.isSome_iff_exists.mp hthere
            exact (hbooks.waiting client handshake hhand).1 hkey
          have hreported := Participant.reported_saveYourselfDone.mpr ⟨⟨success, rfl⟩, hcurrent⟩
          simp [asked?, hwaits, hget, hreported]
      | _ => exact absurd hdone (by simp [ManagerEvent.isDone])
  | _ => exact absurd hdone (by simp [ManagerEvent.isDone])

/-- What an event in the middle of a logout does to who is waited for. -/
theorem mem_saving_handled (hinv : LogoutInv manager.session)
    (hphase : manager.session.phase = .shutdown) (h : Handled w manager event turn)
    (hstays : turn.manager.session.phase = .shutdown) :
    key ∈ turn.manager.session.saving ↔ key ∈ manager.session.saving
      ∧ ∀ operation, manager.asked? event = some operation →
        operation.discharges key = false ∧ operation ≠ .report key .requestPhase2 := by
  rw [h.session] at hstays ⊢
  unfold sessionTurn at hstays ⊢
  split
  · rename_i operation hasked
    simp only [hasked] at hstays
    rw [Session.mem_saving_perform hinv hphase hstays]
    simp [hasked]
  · rename_i hasked
    simp [hasked]

theorem awaited_step (hreach : Reachable manager) (hphase : manager.session.phase = .shutdown)
    (hstays : (take step manager).manager.session.phase = .shutdown) (h : Awaited key manager) :
    Awaited key (take step manager).manager := by
  intro hkey
  obtain ⟨hinv, hbooks, w', hhandled⟩ := hreach.handled step
  obtain ⟨hinv', _, _⟩ := (hreach.tail step).handled step
  obtain ⟨hbefore, hasked⟩ := (mem_saving_handled hinv hphase hhandled hstays).mp hkey
  obtain ⟨queue, hqueue, hglobal⟩ := h hbefore
  have hwf := wellFormed_reachable hreach key queue hqueue
  refine ⟨_, (own_handled hinv hphase hhandled (hinv'.saving key hkey) hqueue).1, ?_⟩
  rcases (hwf.own key step.2).2 with ⟨hdone, hlist⟩ | ⟨_, locals, hlist, _⟩
  · -- a client that were done with anything else than a local save would no longer be waited for
    have hcurrent : queue.current = some .local := by
      by_contra hcurrent
      have hreport := asked?_of_isDone hbooks (hinv.saving key hbefore) hdone hqueue hcurrent
      exact absurd (hasked _ hreport).1 (by simp [Session.Operation.discharges])
    rw [← hwf.head?] at hcurrent
    obtain ⟨rest, hqueued⟩ := List.head?_eq_some_iff.mp hcurrent
    rw [hlist, hqueued]
    rw [hqueued] at hglobal
    simpa using hglobal
  · rw [hlist]
    exact List.mem_append_left _ hglobal

theorem awaited_run (hreach : Reachable manager) (hphase : manager.session.phase = .shutdown)
    (hkept : Uncancelled manager steps) (h : Awaited key manager) :
    Awaited key (handleEach manager steps).manager := by
  induction steps generalizing manager with
  | nil => exact h
  | cons step steps ih =>
      have hnext := hkept.1 hphase
      exact ih (hreach.tail step) hnext hkept.2 (awaited_step hreach hphase hnext h)

/-! ## From one logout on -/

/-- A manager that has just started. -/
inductive Started : Manager → Prop
  | intro (w : Surroundings) (manifests : List Manifest) (ids : ClientIds) (name : Option String)
      (phaseTimeout handshakeTimeout : Nat) :
      Started (start w {
        session := { Session.new manifests ids with name, phaseTimeout }
        handshakeTimeout }).manager

theorem Started.reachable (h : Started manager) : Reachable manager := by
  obtain ⟨w, manifests, ids, name, phaseTimeout, handshakeTimeout⟩ := h
  exact .init w manifests ids name phaseTimeout handshakeTimeout

theorem Started.unasked (h : Started manager) : Unasked key manager := by
  obtain ⟨w, manifests, ids, name, phaseTimeout, handshakeTimeout⟩ := h
  intro queue hqueue
  unfold start at hqueue
  rw [saves?_follow] at hqueue
  exact absurd hqueue (by simp [saves?, KeyMap.empty, KeyMap.get?])

/-- How a client with saves of its own state only gets out of a logout. -/
inductive LetsGo (key : ClientKey) (queue : SaveQueue) : ManagerEvent → Prop
  /-- Its input ends. -/
  | closed : LetsGo key queue (.closed key)
  /-- It says goodbye. -/
  | goodbye (reasons : List String) : LetsGo key queue (.message key (.closeConnection reasons))
  /-- It puts its save off, and is not at a save of its own state. -/
  | putsOff (current : queue.current ≠ some .local) :
      LetsGo key queue (.message key .saveYourselfPhase2Request)
  /-- It is done with a save, and was at none. -/
  | done (success : Bool) (current : queue.current = none) :
      LetsGo key queue (.message key (.saveYourselfDone success))

/-- A client with saves of its own state only, once it is waited for, is waited for until it
lets the logout go on without it. -/
theorem letsGo_of_released (hreach : Reachable manager) (hphase : manager.session.phase = .shutdown)
    (hstays : (take step manager).manager.session.phase = .shutdown)
    (hqueue : manager.saves? key = some queue) (hunasked : ¬queue.Unsaved)
    (hkey : key ∈ manager.session.saving)
    (hgone : key ∉ (take step manager).manager.session.saving) : LetsGo key queue step.2 := by
  obtain ⟨hinv, _, w', h⟩ := hreach.handled step
  obtain ⟨w, event⟩ := step
  have hreleased : ∃ operation, manager.asked? event = some operation
      ∧ (operation.discharges key = true ∨ operation = .report key .requestPhase2) := by
    by_contra hnone
    refine hgone ((mem_saving_handled hinv hphase h hstays).mpr ⟨hkey, fun operation hasked => ?_⟩)
    by_contra hnot
    refine hnone ⟨operation, hasked, ?_⟩
    by_cases hdis : operation.discharges key = true
    · exact .inl hdis
    · refine .inr ?_
      by_contra hput
      exact hnot ⟨by simpa using hdis, hput⟩
  obtain ⟨operation, hasked, hcase⟩ := hreleased
  have hreport : ∃ said, operation = .report key said
      ∧ (said = .saveYourselfDone ∨ said = .disconnected ∨ said = .requestPhase2) := by
    rcases hcase with hdis | rfl
    · rcases Session.eq_of_discharges hdis with rfl | rfl
      · exact ⟨_, rfl, .inl rfl⟩
      · exact ⟨_, rfl, .inr (.inl rfl)⟩
    · exact ⟨_, rfl, .inr (.inr rfl)⟩
  obtain ⟨said, rfl, hsaid⟩ := hreport
  cases asked_of_some hasked with
  | closed => exact .closed
  | @report _ participant message _ hget hreported =>
      obtain rfl : participant.saves = queue := by
        rw [saves?, hget] at hqueue
        exact Option.some.inj hqueue
      rcases hsaid with rfl | rfl | rfl
      · obtain ⟨⟨success, rfl⟩, hcurrent⟩ := Participant.reported_saveYourselfDone.mp hreported
        refine .done success ?_
        -- whatever it were at would be a save of its own state
        by_contra hsome
        obtain ⟨type, htype⟩ := Option.ne_none_iff_exists'.mp hsome
        have heq := SaveQueue.unsaved_iff.mp hunasked type (SaveQueue.mem_toList.mpr (.inl htype))
        exact hcurrent (heq ▸ htype)
      · obtain ⟨reasons, rfl⟩ := Participant.reported_disconnected.mp hreported
        exact .goodbye reasons
      · obtain ⟨rfl, hcurrent⟩ := Participant.reported_requestPhase2.mp hreported
        exact .putsOff hcurrent

/-- A client that is waited for in a logout for which its queue had no room. -/
structure Stalls (manager : Manager) (steps : List Step) (key : ClientKey) (queue : SaveQueue) :
    Prop where
  /-- It is not asked to save and quit, in all of the run. -/
  unasked : ∀ later, Uncancelled manager (steps ++ later) → ∀ type style fast,
    .sent key (.saveYourself type true style fast) ∉ (handleEach manager (steps ++ later)).actions
  /-- It is waited for until it lets the logout go on without it. -/
  released : ∀ step, (handleEach manager (steps ++ [step])).manager.session.phase = .shutdown →
    key ∉ (handleEach manager (steps ++ [step])).manager.session.saving → LetsGo key queue step.2

/-- When a logout begins, a client that has room for its save has it in its queue. -/
theorem awaited_begins (h : SavesAt (begun.request .global).2.toList 0 key manager)
    (hroom : begun.next = none) : Awaited key manager := by
  intro _
  obtain ⟨queue, locals, hqueue, _, hlist, _⟩ := h.queue
  refine ⟨queue, hqueue, ?_⟩
  rw [hlist]
  refine List.mem_append_left _ ?_
  obtain ⟨current, next⟩ := begun
  obtain rfl : next = none := hroom
  cases current with
  | none => simp [SaveQueue.request, SaveQueue.toList]
  | some type => simp [SaveQueue.request, SaveQueue.toList]

/-- **Who can hold up a logout.** In a run that cancels no logout, a client that is waited for
has the save of the logout in its queue exactly if there was room for it when the logout began.
If there was none, it is never asked to save and quit, and it is waited for until it is gone,
puts its save off, or is done without having been at a save. -/
theorem stalls_iff_full (hstart : Started manager)
    (hkept : Uncancelled manager (before ++ first :: after))
    (hcalm : (handleEach manager before).manager.session.phase ≠ .shutdown)
    (hbegins : (handleEach manager (before ++ [first])).manager.session.phase = .shutdown)
    (hkey : key ∈ (handleEach manager (before ++ first :: after)).manager.session.saving) :
    ∃ begun queue, (handleEach manager before).manager.saves? key = some begun
      ∧ (handleEach manager (before ++ first :: after)).manager.saves? key = some queue
      ∧ (.global ∈ queue.toList ↔ begun.next = none)
      ∧ (begun.next ≠ none → Stalls manager (before ++ first :: after) key queue) := by
  have hbefore := hstart.reachable.handleEach before
  have hafter := (hbefore.tail first).handleEach after
  obtain ⟨hquiet, hfirst⟩ := uncancelled_append.mp hkept
  have hend := handleEach_append_manager manager before (first :: after)
  rw [handleEach_snoc_manager] at hbegins
  rw [hend] at hkey ⊢
  obtain ⟨hlasts, hphase⟩ := hfirst.2.lasts hbegins
  -- whoever is waited for now was there when the logout began
  obtain ⟨hinv, hbooks, _⟩ := hafter.handled first
  have hthere := hinv.saving key hkey
  obtain ⟨queue, hqueue⟩ := hbooks.getD hthere
  obtain ⟨begun, hbegun, hdone, hsaves⟩ :=
    savesAt_begins hbefore hcalm hbegins (clients_of_lasts (hbefore.tail first) hlasts hthere)
  refine ⟨begun, queue, hbegun, hqueue, ?_⟩
  by_cases hroom : begun.next = none
  · obtain ⟨asked, hasked, hglobal⟩ := awaited_run (hbefore.tail first) hbegins hfirst.2
      (awaited_begins hsaves hroom) hkey
    obtain rfl := Option.some.inj (hasked.symm.trans hqueue)
    exact ⟨iff_of_true hglobal hroom, fun hfull => absurd hroom hfull⟩
  · obtain ⟨hunasked, hsilent⟩ := unasked_run hstart.reachable hquiet (.inr hcalm)
      (hstart.unasked : Unasked key manager)
    obtain ⟨hnext, hunbidden⟩ := unasked_full hbefore hdone hbegun hroom hunasked
    have hlocal := (unasked_run (hbefore.tail first) hfirst.2 (.inl hbegins) hnext).1 queue hqueue
    refine ⟨iff_of_false (fun hglobal => ?_) hroom, fun _ => ⟨?_, ?_⟩⟩
    · exact absurd (SaveQueue.unsaved_iff.mp hlocal _ hglobal) (by simp)
    · intro later hlater type style fast hsent
      rw [List.append_assoc] at hlater hsent
      rw [handleEach_append_actions] at hsent
      have hrest := (uncancelled_append.mp hlater).2.2
      have hall := hsilent.append
        (hunbidden.append (unasked_run (hbefore.tail first) hrest (.inl hbegins) hnext).2)
      exact absurd (hall _ hsent) (by simp [ManagerMessage.asksToQuit])
    · intro step hstays hgone
      rw [handleEach_snoc_manager, hend] at hstays hgone
      exact letsGo_of_released hafter hphase hstays hqueue hlocal hkey hgone

/-- A manager without programs that has just started. -/
def waiting : Manager :=
  (start Session.still {
    session := { Session.new [] (.ofSeeds 0 0 0) with name := none, phaseTimeout := 10000 }
    handshakeTimeout := 5000 }).manager

theorem waiting_started : Started waiting :=
  .intro Session.still [] (.ofSeeds 0 0 0) none 10000 5000

/-- One client is new and asks for one more save at once, so that its queue is full. Another one
is back from an earlier session and has nothing to save. -/
def crowded : List Step :=
  [(Session.still, .accepted), (Session.still, .message 1 (.registerClient none)),
    (Session.still, .message 1 (.saveYourselfRequest .local false .none false false)),
    (Session.still, .accepted), (Session.still, .message 2 (.registerClient (some "b")))]

/-- The first client is not asked to quit after its first save, and the second one has been. -/
theorem stalls_iff_full_crowded :
    Uncancelled waiting (crowded ++ logout :: [saved])
    ∧ (handleEach waiting (crowded ++ logout :: [saved])).manager.session.saving = [1, 2]
    ∧ (∃ begun queue, (handleEach waiting crowded).manager.saves? 1 = some begun
      ∧ (handleEach waiting (crowded ++ logout :: [saved])).manager.saves? 1 = some queue
      ∧ .global ∉ queue.toList ∧ Stalls waiting (crowded ++ logout :: [saved]) 1 queue)
    ∧ ∃ queue, (handleEach waiting (crowded ++ logout :: [saved])).manager.saves? 2 = some queue
      ∧ .global ∈ queue.toList := by
  have hkept : Uncancelled waiting (crowded ++ logout :: [saved]) :=
    ⟨fun h => absurd h (by decide), fun h => absurd h (by decide), fun h => absurd h (by decide),
      fun h => absurd h (by decide), fun h => absurd h (by decide), fun h => absurd h (by decide),
      fun _ => rfl, trivial⟩
  have hwaits :
      (handleEach waiting (crowded ++ logout :: [saved])).manager.session.saving = [1, 2] :=
    rfl
  have hfirst : 1 ∈ (handleEach waiting (crowded ++ logout :: [saved])).manager.session.saving := by
    rw [hwaits]
    exact List.mem_cons_self
  have hsecond : 2 ∈ (handleEach waiting (crowded ++ logout :: [saved])).manager.session.saving := by
    rw [hwaits]
    exact List.mem_cons_of_mem 1 List.mem_cons_self
  obtain ⟨begun, queue, hbegun, hqueue, hiff, hstalls⟩ :=
    stalls_iff_full waiting_started hkept (by decide) rfl hfirst
  obtain ⟨begun', queue', hbegun', hqueue', hiff', _⟩ :=
    stalls_iff_full waiting_started hkept (by decide) rfl hsecond
  obtain rfl : { current := some .local, next := some .local } = begun := Option.some.inj hbegun
  obtain rfl : .empty = begun' := Option.some.inj hbegun'
  exact ⟨hkept, hwaits, ⟨_, queue, rfl, hqueue, fun h => absurd (hiff.mp h) (by simp),
    hstalls (by simp)⟩, queue', hqueue', hiff'.mpr rfl⟩

end Manager

end Xsmp
