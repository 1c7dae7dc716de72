import Xsmp.Proofs.Client.Life
import Xsmp.Proofs.Manager.Saves

/-!
# One save at a time

A client is asked to save from four sides: when it is registered, by a checkpoint, by a logout
and by itself. Whatever comes when, it works on one save at a time. An onlooker who knows the
requests and hears when the client is done can tell what is outstanding (`outstanding`): a
request is taken on while at most one save is outstanding, and is dropped otherwise. What the
client is asked for is just what was taken on, in that order, but for one save that may still
wait (`disciplined`).
-/

namespace Xsmp

/-- The kind of save that a message asks for. -/
def ManagerMessage.saveType? : ManagerMessage → Option SaveType
  | .saveYourself type _ _ _ => some type
  | _ => none

namespace SaveQueue

variable {queue : SaveQueue}

/-- A request is taken on if there is room for it. -/
theorem WellFormed.taken (h : queue.WellFormed) (type : SaveType) :
    (queue.request type).2.toList =
        (if queue.toList.length ≤ 1 then queue.toList ++ [type] else queue.toList)
      ∧ (queue.request type).1.toList ++ (queue.request type).2.next.toList =
        queue.next.toList ++ if queue.toList.length ≤ 1 then [type] else [] := by
  obtain ⟨current, next⟩ := queue
  cases current with
  | none =>
      have hnext : next = none := h rfl
      subst hnext
      exact ⟨rfl, rfl⟩
  | some first =>
      cases next with
      | none => exact ⟨rfl, rfl⟩
      | some waiting => exact ⟨rfl, rfl⟩

/-- A client is asked at once for a save if none is in flight, and then one is. -/
theorem isSome_request (queue : SaveQueue) (type : SaveType) :
    ((queue.request type).1.isSome → queue.current.isSome = false)
      ∧ (queue.request type).2.current.isSome =
        (queue.current.isSome || (queue.request type).1.isSome) := by
  obtain ⟨current, next⟩ := queue
  cases next with
  | some waiting => simp [request]
  | none => cases current <;> simp [request]

/-- A request is dropped when two saves are outstanding. -/
theorem WellFormed.dropped (h : queue.WellFormed) (type : SaveType) :
    queue.toList.length = 2 ↔
      (queue.request type).2 = queue ∧ (queue.request type).1.toList = [] := by
  obtain ⟨current, next⟩ := queue
  cases current with
  | none =>
      have hnext : next = none := h rfl
      subst hnext
      simp [toList, SaveQueue.request]
  | some first => cases next <;> simp [toList, SaveQueue.request]

end SaveQueue

namespace Participant

variable {participant : Participant} {input : Input} {inputs : List Input}
  {messages : List ManagerMessage} {type : SaveType}

/-! ## What inputs have to do with saves -/

/-- The save that an input asks for. -/
def Input.asks : Input → Option SaveType
  | .called call => call.asks
  | .received (.saveYourselfRequest _ false _ _ false) => some .local
  | .received _ => none

/-- Whether a client says that it is done with a save. -/
def Input.isDone : Input → Bool
  | .received (.saveYourselfDone _) => true
  | _ => false

/-- The kinds of save that some messages ask for, in order. -/
def savesAsked (messages : List ManagerMessage) : List SaveType :=
  messages.filterMap ManagerMessage.saveType?

@[simp] theorem saveType?_saveMessage (type : SaveType) :
    (saveMessage type).saveType? = some type := by
  cases type <;> rfl

theorem savesAsked_saveMessages (saves : Option SaveType) :
    savesAsked (saves.toList.map saveMessage) = saves.toList := by
  cases saves with
  | none => rfl
  | some type => simp [savesAsked]

/-- Nothing is said about a save being done, neither to the client nor to the session. -/
structure Uneventful (reaction : Reaction) : Prop where
  sent : .saveComplete ∉ reaction.sent
  saved : reaction.reported ≠ some .savedState
  done : reaction.reported ≠ some .saveYourselfDone

/-- What an input does to the saves of a participant, and what is said about it. -/
inductive SaveStep (participant : Participant) (input : Input) : Prop
  | asks (type : SaveType) (asked : input.asks = some type)
      (saves : (participant.react input).participant.saves = (participant.saves.request type).2)
      (sent : savesAsked (participant.react input).sent =
        (participant.saves.request type).1.toList)
      (calm : Uneventful (participant.react input))
  | done (success : Bool) (heq : input = .received (.saveYourselfDone success))
  | other (unasked : input.asks = none) (undone : input.isDone = false)
      (saves : (participant.react input).participant.saves = participant.saves)
      (sent : savesAsked (participant.react input).sent = [])
      (calm : Uneventful (participant.react input))

theorem uneventful_saves {saves : SaveQueue} {queue : Option SaveType} :
    Uneventful { participant := { participant with saves }
                 sent := queue.toList.map saveMessage } := by
  refine ⟨fun hmem => ?_, by simp, by simp⟩
  obtain ⟨type, _, heq⟩ := List.mem_map.mp hmem
  cases type <;> exact absurd heq (by simp [saveMessage])

/-- A request for a save is passed on to the queue. -/
theorem saveStep_request (asked : input.asks = some type)
    (heq : participant.react input = participant.requestSave type) :
    SaveStep participant input := by
  refine .asks type asked ?_ ?_ ?_
  · rw [heq]
    rfl
  · rw [heq]
    exact savesAsked_saveMessages _
  · rw [heq]
    exact uneventful_saves

theorem saveStep_called (participant : Participant) (call : ClientCall) :
    SaveStep participant (.called call) := by
  cases call with
  | registered clientId resumed =>
      cases resumed with
      | true =>
          refine .other rfl rfl rfl rfl ?_
          constructor <;> simp [react, called]
      | false =>
          -- the reply comes before the request, and asks for nothing
          let saving := Participant.requestSave (relabel { participant with clientId }) .local
          have hreact : participant.react (.called (.registered clientId false)) =
              { saving with sent := .registerClientReply clientId :: saving.sent } := rfl
          have hcalm : Uneventful saving := uneventful_saves
          refine .asks .local rfl rfl ?_ ⟨?_, hcalm.saved, hcalm.done⟩
          · rw [hreact]
            exact savesAsked_saveMessages _
          · rw [hreact, List.mem_cons, not_or]
            exact ⟨by simp, hcalm.sent⟩
  | saveState => exact saveStep_request rfl rfl
  | saveYourself full => exact saveStep_request rfl rfl
  | _ =>
      refine .other rfl rfl rfl rfl ?_
      constructor <;> simp [react, called]

theorem saveStep_received (participant : Participant) (message : ClientMessage) :
    SaveStep participant (.received message) := by
  cases message with
  | saveYourselfRequest saveType shutdown style fast isGlobal =>
      -- a request to log out, or to save all clients, asks nothing of this one
      cases shutdown <;> cases isGlobal
      · exact saveStep_request rfl rfl
      all_goals
        refine .other rfl rfl rfl rfl ?_
        constructor <;> simp [react, received]
  | saveYourselfDone success => exact .done success rfl
  | saveYourselfPhase2Request =>
      refine .other rfl rfl (received_saves participant _) ?_ ?_
      · simp only [react, received]
        split <;> rfl
      · simp only [react, received]
        split <;> constructor <;> simp
  | setProperties properties =>
      refine .other rfl rfl (received_saves participant _) rfl ?_
      constructor <;> simp [react, received]
  | deleteProperties names =>
      refine .other rfl rfl (received_saves participant _) rfl ?_
      constructor <;> simp [react, received]
  | _ =>
      refine .other rfl rfl rfl rfl ?_
      constructor <;> simp [react, received]

/-- **What every input does to the saves of a participant.** -/
theorem saveStep (participant : Participant) (input : Input) : SaveStep participant input := by
  cases input with
  | called call => exact saveStep_called participant call
  | received message => exact saveStep_received participant message

/-- What a client is told that is done with a save, and what the session is told. -/
theorem saveDone_spoken (participant : Participant) :
    participant.saveDone.sent =
        (if participant.saves.current = some .local then [.saveComplete] else [])
          ++ participant.saves.next.toList.map saveMessage
      ∧ participant.saveDone.reported =
        some (if participant.saves.current = some .local then .savedState else .saveYourselfDone)
      ∧ participant.saveDone.participant.saves = participant.saves.complete.2 := by
  by_cases hlocal : participant.saves.current = some .local
  · simp [saveDone, SaveQueue.complete, hlocal]
  · simp [saveDone, SaveQueue.complete, hlocal]

theorem savesAsked_saveDone (participant : Participant) :
    savesAsked participant.saveDone.sent = participant.saves.next.toList := by
  rw [(saveDone_spoken participant).1, savesAsked, List.filterMap_append]
  have hword : (if participant.saves.current = some .local then [.saveComplete]
      else []).filterMap ManagerMessage.saveType? = [] := by
    split <;> rfl
  rw [hword, List.nil_append]
  exact savesAsked_saveMessages _

/-! ## What an onlooker knows -/

/-- The saves that are outstanding after one more input, the oldest first. -/
def settle (held : List SaveType) (input : Input) : List SaveType :=
  match input.asks with
  | some type => if held.length ≤ 1 then held ++ [type] else held
  | none => if input.isDone then held.tail else held

/-- The saves that are outstanding after some inputs. -/
def outstanding (inputs : List Input) : List SaveType := inputs.foldl settle []

/-- The requests among some inputs that find at most one save outstanding, if `held` is what is
outstanding to begin with. -/
def takenOn (held : List SaveType) : List Input → List SaveType
  | [] => []
  | input :: inputs =>
    (if held.length ≤ 1 then input.asks.toList else []) ++ takenOn (settle held input) inputs

/-- **One input keeps the queue as the onlooker has it, and what is asked for now or waits is
what waited before and what has been taken on.** -/
theorem taken_step (h : participant.saves.WellFormed) (input : Input) :
    (participant.react input).participant.saves.WellFormed
      ∧ (participant.react input).participant.saves.toList = settle participant.saves.toList input
      ∧ savesAsked (participant.react input).sent
          ++ (participant.react input).participant.saves.next.toList =
        participant.saves.next.toList
          ++ if participant.saves.toList.length ≤ 1 then input.asks.toList else [] := by
  cases saveStep participant input with
  | asks type asked saves sent _ =>
      obtain ⟨hlist, hsent⟩ := h.taken type
      rw [saves, sent, settle, asked]
      exact ⟨(h.request type).1, hlist, hsent⟩
  | done success heq =>
      -- what waited is asked for now, so that the two together stay the same
      subst heq
      obtain ⟨hwf, hlist⟩ := h.complete
      have hsaves := (saveDone_spoken participant).2.2
      have hsent := savesAsked_saveDone participant
      show participant.saveDone.participant.saves.WellFormed
        ∧ participant.saveDone.participant.saves.toList = participant.saves.toList.tail
        ∧ savesAsked participant.saveDone.sent ++ participant.saveDone.participant.saves.next.toList
          = participant.saves.next.toList ++ if participant.saves.toList.length ≤ 1 then [] else []
      rw [hsaves, hsent, hlist, List.drop_one, ite_self]
      exact ⟨hwf, rfl, rfl⟩
  | other unasked undone saves sent _ =>
      rw [saves, sent, settle, unasked, undone]
      simp [h]

/-! ## What passes between a participant and the others -/

/-- Something that is seen of a participant from outside. -/
inductive Sight where
  | heard (input : Input)
  | sent (message : ManagerMessage)
  | reported (event : ClientEvent)

/-- What is seen of a participant when something happens to it. -/
def glimpse (participant : Participant) (input : Input) : List Sight :=
  .heard input :: ((participant.react input).sent.map .sent
    ++ (participant.react input).reported.toList.map .reported)

/-- What is seen of a participant in the course of its life. -/
def seen (participant : Participant) : List Input → List Sight
  | [] => []
  | input :: inputs =>
    participant.glimpse input ++ (participant.react input).participant.seen inputs

/-- The kind of save that is asked for. -/
def Sight.saveType? : Sight → Option SaveType
  | .sent message => message.saveType?
  | _ => none

theorem saveTypes_glimpse (participant : Participant) (input : Input) :
    (participant.glimpse input).filterMap Sight.saveType? =
      savesAsked (participant.react input).sent := by
  have hsent : ((participant.react input).sent.map Sight.sent).filterMap Sight.saveType? =
      savesAsked (participant.react input).sent := List.filterMap_map
  have hreported : ((participant.react input).reported.toList.map Sight.reported).filterMap
      Sight.saveType? = [] := by
    rw [List.filterMap_map, List.filterMap_eq_nil_iff]
    exact fun _ _ => rfl
  rw [glimpse, List.filterMap_cons_none rfl, List.filterMap_append, hsent, hreported,
    List.append_nil]

/-- **What is asked for in the course of a life, with what waits at its end.** -/
theorem saveTypes_seen (h : participant.saves.WellFormed) (inputs : List Input) :
    (participant.after inputs).saves.WellFormed
      ∧ (participant.after inputs).saves.toList = inputs.foldl settle participant.saves.toList
      ∧ (participant.seen inputs).filterMap Sight.saveType?
          ++ (participant.after inputs).saves.next.toList =
        participant.saves.next.toList ++ takenOn participant.saves.toList inputs := by
  induction inputs generalizing participant with
  | nil => exact ⟨h, rfl, (List.append_nil _).symm⟩
  | cons input inputs ih =>
      obtain ⟨hwf, hlist, hsent⟩ := taken_step h input
      obtain ⟨hwf', hlist', hsent'⟩ := ih hwf
      refine ⟨hwf', ?_, ?_⟩
      · rw [after_cons, hlist', hlist]
        rfl
      · rw [after_cons, seen, List.filterMap_append, saveTypes_glimpse, List.append_assoc, hsent',
          ← List.append_assoc, hsent, hlist, takenOn, List.append_assoc]

/-! ## Saves do not overlap -/

/-- Whether a save is in flight after something is seen. -/
def Sight.busy (busy : Bool) : Sight → Bool
  | .heard input => busy && !input.isDone
  | .sent message => busy || message.saveType?.isSome
  | .reported _ => busy

/-- A save is asked for only when none is in flight. -/
def Apart (busy : Bool) : List Sight → Prop
  | [] => True
  | sight :: rest => (sight.saveType?.isSome → busy = false) ∧ Apart (sight.busy busy) rest

theorem apart_append {sights more : List Sight} {busy : Bool} :
    Apart busy (sights ++ more) ↔
      Apart busy sights ∧ Apart (sights.foldl Sight.busy busy) more := by
  induction sights generalizing busy with
  | nil => simp [Apart]
  | cons sight rest ih => rw [List.cons_append, Apart, ih, Apart, and_assoc, List.foldl_cons]

theorem apart_reported (busy : Bool) (event : Option ClientEvent) :
    Apart busy (event.toList.map .reported)
      ∧ (event.toList.map Sight.reported).foldl Sight.busy busy = busy := by
  cases event with
  | none => exact ⟨trivial, rfl⟩
  | some event => exact ⟨⟨fun h => absurd h (by simp [Sight.saveType?]), trivial⟩, rfl⟩

/-- Messages that ask for one save at most do so apart if none is in flight. -/
theorem apart_sent {asked : Option SaveType} {busy : Bool}
    (hasked : savesAsked messages = asked.toList) (h : asked.isSome → busy = false) :
    Apart busy (messages.map .sent)
      ∧ (messages.map Sight.sent).foldl Sight.busy busy = (busy || asked.isSome) := by
  induction messages generalizing busy asked with
  | nil =>
      cases asked with
      | none => exact ⟨trivial, (Bool.or_false busy).symm⟩
      | some type => exact absurd hasked (by simp [savesAsked])
  | cons message rest ih =>
      cases hmessage : message.saveType? with
      | none =>
          have hrest : savesAsked rest = asked.toList := by
            rw [← hasked, savesAsked, savesAsked, List.filterMap_cons_none hmessage]
          have hbusy : Sight.busy busy (.sent message) = busy := by simp [Sight.busy, hmessage]
          obtain ⟨hapart, hfold⟩ := ih hrest h
          rw [List.map_cons, Apart, List.foldl_cons, hbusy]
          exact ⟨⟨fun hsome => absurd hsome (by simp [Sight.saveType?, hmessage]), hapart⟩, hfold⟩
      | some type =>
          -- this one asks for the save, and the rest for none
          rw [savesAsked, List.filterMap_cons_some hmessage] at hasked
          obtain ⟨rfl, hrest⟩ : asked = some type
              ∧ savesAsked rest = (none : Option SaveType).toList := by
            cases asked with
            | none => exact absurd hasked (by simp)
            | some other =>
                obtain ⟨rfl, hrest⟩ := List.cons.inj hasked
                exact ⟨rfl, hrest⟩
          have hbusy : Sight.busy busy (.sent message) = true := by simp [Sight.busy, hmessage]
          have hnone : (none : Option SaveType).isSome = true → true = false := by simp
          obtain ⟨hapart, hfold⟩ := ih hrest hnone
          rw [List.map_cons, Apart, List.foldl_cons, hbusy, hfold]
          exact ⟨⟨fun _ => h rfl, hapart⟩, by simp⟩

theorem Input.isDone_of_asks (h : input.asks = some type) : input.isDone = false := by
  cases input with
  | called call => rfl
  | received message =>
      cases message with
      | saveYourselfDone success => exact absurd h (by simp [Input.asks])
      | _ => rfl

/-- What an input leads to keeps saves apart, and shows whether one is in flight. -/
theorem apart_glimpse (participant : Participant) (input : Input) :
    Apart participant.saves.current.isSome (participant.glimpse input)
      ∧ (participant.glimpse input).foldl Sight.busy participant.saves.current.isSome =
        (participant.react input).participant.saves.current.isSome := by
  -- after the input, what is sent asks for one save at most, and only if none is in flight
  have hglimpse : ∀ asked : Option SaveType,
      savesAsked (participant.react input).sent = asked.toList →
      (asked.isSome → (participant.saves.current.isSome && !input.isDone) = false) →
      Apart participant.saves.current.isSome (participant.glimpse input)
        ∧ (participant.glimpse input).foldl Sight.busy participant.saves.current.isSome =
          ((participant.saves.current.isSome && !input.isDone) || asked.isSome) := by
    intro asked hasked hfree
    obtain ⟨hsent, hbusy⟩ := apart_sent hasked hfree
    obtain ⟨hreported, hsame⟩ := apart_reported
      ((participant.saves.current.isSome && !input.isDone) || asked.isSome)
      (participant.react input).reported
    rw [glimpse, Apart, apart_append, List.foldl_cons, List.foldl_append, Sight.busy, hbusy]
    exact ⟨⟨fun hsome => absurd hsome (by simp [Sight.saveType?]), hsent, hreported⟩, hsame⟩
  cases saveStep participant input with
  | asks type asked saves sent _ =>
      have hdone := Input.isDone_of_asks asked
      obtain ⟨hfree, hbusy⟩ := participant.saves.isSome_request type
      obtain ⟨hapart, hfold⟩ := hglimpse _ sent (by simpa [hdone] using hfree)
      refine ⟨hapart, ?_⟩
      rw [hfold, saves, hdone, hbusy]
      simp
  | done success heq =>
      subst heq
      obtain ⟨hapart, hfold⟩ := hglimpse _ (savesAsked_saveDone participant)
        (fun _ => Bool.and_false _)
      refine ⟨hapart, ?_⟩
      rw [hfold]
      show _ = participant.saveDone.participant.saves.current.isSome
      rw [(saveDone_spoken participant).2.2]
      simp [Input.isDone, SaveQueue.complete]
  | other unasked undone saves sent _ =>
      obtain ⟨hapart, hfold⟩ := hglimpse none sent (by simp)
      refine ⟨hapart, ?_⟩
      rw [hfold, saves, undone]
      simp

/-- **In the course of a life a save is asked for only when none is in flight.** -/
theorem apart_seen (participant : Participant) (inputs : List Input) :
    Apart participant.saves.current.isSome (participant.seen inputs) := by
  induction inputs generalizing participant with
  | nil => trivial
  | cons input inputs ih =>
      obtain ⟨hapart, hbusy⟩ := apart_glimpse participant input
      rw [seen, apart_append, hbusy]
      exact ⟨hapart, ih _⟩

theorem busy_of_undone {sights : List Sight}
    (h : ∀ success, .heard (.received (.saveYourselfDone success)) ∉ sights) :
    sights.foldl Sight.busy true = true := by
  induction sights with
  | nil => rfl
  | cons sight rest ih =>
      have hrest := ih fun success hmem => h success (List.mem_cons_of_mem sight hmem)
      have hbusy : Sight.busy true sight = true := by
        cases sight with
        | heard input =>
            cases input with
            | received message =>
                cases message with
                | saveYourselfDone success => exact absurd List.mem_cons_self (h success)
                | _ => rfl
            | called call => rfl
        | _ => rfl
      rw [List.foldl_cons, hbusy, hrest]

/-- Between two saves the client says that it is done with one. -/
theorem Apart.done_between {before between later : List Sight} {first second : ManagerMessage}
    {busy : Bool} (h : Apart busy (before ++ .sent first :: between ++ .sent second :: later))
    (hfirst : first.saveType?.isSome) (hsecond : second.saveType?.isSome) :
    ∃ success, .heard (.received (.saveYourselfDone success)) ∈ between := by
  -- otherwise the first save would still be in flight when the second is asked for
  by_contra hnone
  rw [not_exists] at hnone
  have hlast := (apart_append.mp h).2.1 hsecond
  rw [List.foldl_append, List.foldl_cons, Sight.busy, hfirst, Bool.or_true,
    busy_of_undone hnone] at hlast
  exact absurd hlast (by simp)

/-! ## How saves are asked for -/

theorem saveMessage_of_receivedOrders {queue : SaveQueue} {said : ClientMessage}
    {message : ManagerMessage} (h : message ∈ queue.receivedOrders said) :
    ∃ type, message = saveMessage type := by
  unfold SaveQueue.receivedOrders at h
  split at h
  · obtain ⟨type, _, heq⟩ := List.mem_map.mp h
    exact ⟨type, heq.symm⟩
  · obtain ⟨type, _, heq⟩ := List.mem_map.mp h
    exact ⟨type, heq.symm⟩
  · exact absurd h List.not_mem_nil

/-- Every save is asked for in the same words. -/
theorem saveMessage_of_sent {message : ManagerMessage}
    (hsent : message ∈ (participant.react input).sent) (htype : message.saveType? = some type) :
    message = saveMessage type := by
  have horder : message ∈ (participant.react input).sent.filter ManagerMessage.isOrder := by
    refine List.mem_filter.mpr ⟨hsent, ?_⟩
    cases message with
    | saveYourself _ _ _ _ => rfl
    | _ => exact absurd htype (by simp [ManagerMessage.saveType?])
  obtain ⟨asked, rfl⟩ : ∃ asked, message = saveMessage asked := by
    cases input with
    | received said =>
        rw [react, received_orders] at horder
        exact saveMessage_of_receivedOrders horder
    | called call =>
        rw [react, called_orders] at horder
        rcases SaveQueue.mem_callOrders horder with ⟨rfl, _⟩ | ⟨asked, heq, _⟩
        · exact absurd htype (by simp [ManagerMessage.saveType?])
        · exact ⟨asked, heq⟩
  rw [saveType?_saveMessage] at htype
  rw [Option.some.inj htype]

/-- Whatever is sent is sent because of some input. -/
theorem exists_of_sent {message : ManagerMessage} (h : .sent message ∈ participant.seen inputs) :
    ∃ earlier input, message ∈ ((participant.after earlier).react input).sent := by
  induction inputs generalizing participant with
  | nil => exact absurd h List.not_mem_nil
  | cons first rest ih =>
      rcases List.mem_append.mp h with h | h
      · refine ⟨[], first, ?_⟩
        rcases List.mem_cons.mp h with heq | h
        · exact absurd heq (by simp)
        · rcases List.mem_append.mp h with h | h
          · obtain ⟨other, hmem, heq⟩ := List.mem_map.mp h
            exact Sight.sent.inj heq ▸ hmem
          · obtain ⟨event, _, heq⟩ := List.mem_map.mp h
            exact absurd heq (by simp)
      · obtain ⟨earlier, input, hsent⟩ := ih h
        exact ⟨first :: earlier, input, hsent⟩

/-! ## Word of saves that are done -/

/-- What is said when something happens while a save is in flight, or none is. -/
structure Worded (inFlight : Option SaveType) (input : Input) (reaction : Reaction) : Prop where
  /-- The client is told that its save is complete when it is done with one of its own state. -/
  completed : .saveComplete ∈ reaction.sent ↔ input.isDone = true ∧ inFlight = some .local
  /-- And so is the session. -/
  saved : reaction.reported = some .savedState ↔ input.isDone = true ∧ inFlight = some .local
  /-- The session is told otherwise when the client is done with anything else, or with nothing. -/
  done : reaction.reported = some .saveYourselfDone ↔
    input.isDone = true ∧ inFlight ≠ some .local

theorem Uneventful.worded {reaction : Reaction} {inFlight : Option SaveType}
    (h : Uneventful reaction) (hdone : input.isDone = false) :
    Worded inFlight input reaction where
  completed := iff_of_false h.sent (by simp [hdone])
  saved := iff_of_false h.saved (by simp [hdone])
  done := iff_of_false h.done (by simp [hdone])

theorem worded_saveDone (participant : Participant) (success : Bool) :
    Worded participant.saves.current (.received (.saveYourselfDone success))
      participant.saveDone := by
  obtain ⟨hsent, hreported, _⟩ := saveDone_spoken participant
  have hword : .saveComplete ∉ participant.saves.next.toList.map saveMessage := by
    intro hmem
    obtain ⟨type, _, heq⟩ := List.mem_map.mp hmem
    cases type <;> exact absurd heq (by simp [saveMessage])
  have hdone : Input.isDone (.received (.saveYourselfDone success)) = true := rfl
  refine ⟨?_, ?_, ?_⟩
  · rw [hsent, List.mem_append, or_iff_left hword, hdone]
    split <;> simp_all
  · rw [hreported, hdone]
    split <;> simp_all
  · rw [hreported, hdone]
    split <;> simp_all

theorem worded_react (participant : Participant) (input : Input) :
    Worded participant.saves.current input (participant.react input) := by
  cases saveStep participant input with
  | asks type asked _ _ calm => exact calm.worded (Input.isDone_of_asks asked)
  | other _ undone _ _ calm => exact calm.worded undone
  | done success heq =>
      subst heq
      exact worded_saveDone participant success

/-! ## The discipline -/

/-- What a participant has done about saves in its life so far, and what it does about them
next. -/
structure Disciplined (inputs : List Input) (participant : Participant) (sights : List Sight) :
    Prop where
  /-- Between two requests to save, the client says that it is done. -/
  alone : ∀ before first between second later,
    sights = before ++ .sent first :: between ++ .sent second :: later →
      first.saveType?.isSome → second.saveType?.isSome →
        ∃ success, .heard (.received (.saveYourselfDone success)) ∈ between
  /-- A save waits only while another one is in flight. -/
  follows : participant.saves.current = none → participant.saves.next = none
  /-- The queue holds what is outstanding, which is two saves at most. -/
  holds : participant.saves.current.toList ++ participant.saves.next.toList = outstanding inputs
    ∧ (outstanding inputs).length ≤ 2
  /-- What was asked for, and what waits, is what was taken on, each once and in order. -/
  asked : sights.filterMap Sight.saveType? ++ participant.saves.next.toList = takenOn [] inputs
  /-- A request leads to nothing, now or later, when two saves are outstanding. -/
  dropped : ∀ input type, input.asks = some type → ((outstanding inputs).length = 2 ↔
    (participant.react input).participant.saves = participant.saves
      ∧ savesAsked (participant.react input).sent = [])
  /-- What is done is said as it is. -/
  worded : ∀ input, Worded (outstanding inputs).head? input (participant.react input)
  /-- Word that a save is complete comes before the request for the one that waited. -/
  order : ∀ success, (participant.react (.received (.saveYourselfDone success))).sent =
    (if (outstanding inputs).head? = some .local then [.saveComplete] else [])
      ++ (outstanding inputs).tail.map saveMessage
  /-- A save is for the end of the session, and allows to ask the user, unless it is of the
  client's own state alone. -/
  wording : ∀ type shutdown style fast, .sent (.saveYourself type shutdown style fast) ∈ sights →
    (shutdown = true ∧ style = .any ↔ type = .global ∨ type = .both)
      ∧ (shutdown = false ∧ style = .none ↔ type = .local)

/-- **The saves of a client.** Whatever happens to a new participant, in whatever order, it asks
its client for one save at a time, loses and doubles none, and says rightly what is done. -/
theorem disciplined (key : ClientKey) (inputs : List Input) :
    Disciplined inputs ((new key).after inputs) ((new key).seen inputs) := by
  have hempty : (new key).saves.WellFormed := fun _ => rfl
  obtain ⟨hwf, hlist, hasked⟩ := saveTypes_seen hempty inputs
  have hhead : ((new key).after inputs).saves.current = (outstanding inputs).head? := by
    rw [← hwf.head?, hlist]
    rfl
  have hheld : outstanding inputs = ((new key).after inputs).saves.toList := hlist.symm
  have hnext : ((new key).after inputs).saves.next.toList = (outstanding inputs).tail := by
    rw [hheld, ← List.drop_one, ← hwf.complete.2]
    exact (List.append_nil _).symm
  refine ⟨?_, hwf, ⟨hlist, ?_⟩, hasked, ?_, fun input => hhead ▸ worded_react _ input, ?_, ?_⟩
  · intro before first between second later heq hfirst hsecond
    exact Apart.done_between (heq ▸ apart_seen (new key) inputs) hfirst hsecond
  · rw [hheld]
    exact SaveQueue.length_toList_le _
  · intro input type hasks
    rw [hheld, hwf.dropped type]
    cases saveStep ((new key).after inputs) input with
    | asks other asked saves sent _ =>
        obtain rfl : other = type := Option.some.inj (asked.symm.trans hasks)
        rw [saves, sent]
    | done success heq => exact absurd hasks (by simp [heq, Input.asks])
    | other unasked _ _ _ _ => exact absurd (hasks.symm.trans unasked) (by simp)
  · intro success
    rw [← hnext, ← hhead]
    exact (saveDone_spoken _).1
  · intro type shutdown style fast hsent
    obtain ⟨earlier, input, hmem⟩ := exists_of_sent hsent
    have heq : ManagerMessage.saveYourself type shutdown style fast = saveMessage type :=
      saveMessage_of_sent hmem rfl
    cases type <;> simp_all [saveMessage]

end Participant

end Xsmp
