import Xsmp.Proofs.Session.Queue
import Xsmp.Proofs.Session.Round

/-!
# Turns with the user

Whoever listens to a session, to what its clients ask and report and to whom it calls,
can keep books of the turns with the user without looking at the queue (`Turns`): who
has the turn, and for each request whether it still waits, was granted, or was dropped
because its client saved or went away before. The books and the queue agree after every
operation of every run (`InTurn`). So there is one turn at a time, requests are granted
in the order in which they came, and none is skipped or forgotten.
-/

namespace Xsmp.Session

/-- What has become of a request for a turn. -/
inductive Fate where
  | waiting
  | granted
  /-- Its client has saved or gone away before its turn. -/
  | dropped
  deriving DecidableEq

/-- A request for a turn. -/
structure TurnRequest where
  key : ClientKey
  fate : Fate
  deriving DecidableEq

/-- What is heard of the turns with the user since a logout was last cancelled. -/
structure Turns where
  /-- The client that was called, until its turn is over. -/
  holder : Option ClientKey := none
  /-- The requests, in the order in which they were made. -/
  requests : List TurnRequest := []
  /-- The clients that were called, in that order. -/
  calls : List ClientKey := []

/-! ## The books -/

namespace TurnRequest

/-- A client that leaves gives up a request that still waits. -/
def leave (key : ClientKey) (request : TurnRequest) : TurnRequest :=
  if request.key = key ∧ request.fate = .waiting then { request with fate := .dropped } else request

/-- A client that is called is granted the oldest of its requests. -/
def grantFirst (key : ClientKey) : List TurnRequest → List TurnRequest
  | [] => []
  | request :: rest =>
    if request.key = key ∧ request.fate = .waiting
    then { request with fate := .granted } :: rest
    else request :: grantFirst key rest

/-- The clients whose requests have a fate, in the order of the requests. -/
def fated (fate : Fate) (requests : List TurnRequest) : List ClientKey :=
  (requests.filter (·.fate == fate)).map TurnRequest.key

end TurnRequest

namespace Turns

def clients (fate : Fate) (turns : Turns) : List ClientKey := TurnRequest.fated fate turns.requests

def ask (key : ClientKey) (turns : Turns) : Turns :=
  { turns with requests := turns.requests ++ [⟨key, .waiting⟩] }

/-- The turn of a client is over. -/
def release (key : ClientKey) (turns : Turns) : Turns :=
  { turns with holder := turns.holder.filter (· != key) }

/-- A client gives up its turn and all of its requests. -/
def leave (key : ClientKey) (turns : Turns) : Turns :=
  { turns.release key with requests := turns.requests.map (TurnRequest.leave key) }

/-- A client is called. -/
def grant (key : ClientKey) (turns : Turns) : Turns where
  holder := some key
  requests := TurnRequest.grantFirst key turns.requests
  calls := turns.calls ++ [key]

/-- An operation is heard, before anybody is called. -/
def hear (session : Session) (turns : Turns) : Operation → Turns
  | .cancelShutdown => if (cancelShutdown session).isOk then {} else turns
  | .report key event =>
    if !session.clients.contains key then turns
    else match event with
      | .requestInteraction => turns.ask key
      | .interactionDone cancel =>
        -- only the client that has the turn is heard, and it may have a logout cancelled
        if turns.holder = some key then
          if cancel ∧ (cancelShutdown session).isOk then {} else turns.release key
        else turns
      | .saveYourselfDone | .disconnected => turns.leave key
      | .savedState | .requestPhase2 | .requestLogout => turns
  | _ => turns

/-- What comes out is seen. -/
def see (turns : Turns) : Effect → Turns
  | .called key .interact => turns.grant key
  | _ => turns

/-- What is known of the turns after a step. -/
def after (session : Session) (step : Step) (turns : Turns) : Turns :=
  (take step session).effects.foldl see (turns.hear session step.2)

/-- What is known of the turns after a run. -/
def afterRun (session : Session) (turns : Turns) : List Step → Turns
  | [] => turns
  | step :: steps => afterRun (take step session).session (turns.after session step) steps

end Turns

variable {w : Surroundings} {session : Session} {operation : Operation} {key : ClientKey}
  {turns : Turns} {queue : List ClientKey}

/-! ## Requests -/

namespace TurnRequest

@[simp] theorem fated_append (fate : Fate) (requests more : List TurnRequest) :
    fated fate (requests ++ more) = fated fate requests ++ fated fate more := by
  simp [fated]

theorem fated_cons (fate : Fate) (request : TurnRequest) (requests : List TurnRequest) :
    fated fate (request :: requests) =
      if request.fate = fate then request.key :: fated fate requests else fated fate requests := by
  unfold fated
  rw [List.filter_cons]
  split <;> simp_all

theorem fated_eq_nil {fate : Fate} {requests : List TurnRequest}
    (h : ∀ request ∈ requests, request.fate ≠ fate) : fated fate requests = [] := by
  rw [fated, List.map_eq_nil_iff, List.filter_eq_nil_iff]
  simpa using h

/-- Leaving drops what waits and changes nothing else. -/
theorem leave_cases (key : ClientKey) (request : TurnRequest) :
    (request.key = key ∧ request.fate = .waiting
        ∧ request.leave key = { request with fate := .dropped })
      ∨ (¬(request.key = key ∧ request.fate = .waiting) ∧ request.leave key = request) := by
  by_cases h : request.key = key ∧ request.fate = .waiting
  · exact .inl ⟨h.1, h.2, if_pos h⟩
  · exact .inr ⟨h, if_neg h⟩

theorem fated_waiting_leave (key : ClientKey) (requests : List TurnRequest) :
    fated .waiting (requests.map (leave key)) = (fated .waiting requests).filter (· != key) := by
  induction requests with
  | nil => rfl
  | cons request requests ih =>
      rw [List.map_cons, fated_cons, fated_cons, ih]
      rcases leave_cases key request with ⟨hkey, hfate, heq⟩ | ⟨hstays, heq⟩
      · simp [heq, hfate, hkey]
      · by_cases hfate : request.fate = .waiting
        · have hkey : request.key ≠ key := fun hkey => hstays ⟨hkey, hfate⟩
          simp [heq, hfate, hkey]
        · simp [heq, hfate]

theorem fated_granted_leave (key : ClientKey) (requests : List TurnRequest) :
    fated .granted (requests.map (leave key)) = fated .granted requests := by
  induction requests with
  | nil => rfl
  | cons request requests ih =>
      rw [List.map_cons, fated_cons, fated_cons, ih]
      rcases leave_cases key request with ⟨_, hfate, heq⟩ | ⟨_, heq⟩
      · simp [heq, hfate]
      · rw [heq]

/-- The first request that waits is granted, if it is one of the client that is called. -/
theorem grantFirst_of_head {requests : List TurnRequest} {rest : List ClientKey}
    (h : fated .waiting requests = key :: rest) :
    ∃ before after, requests = before ++ ⟨key, .waiting⟩ :: after
      ∧ (∀ request ∈ before, request.fate ≠ .waiting)
      ∧ grantFirst key requests = before ++ ⟨key, .granted⟩ :: after := by
  induction requests with
  | nil => exact absurd h (by simp [fated])
  | cons request requests ih =>
      rw [fated_cons] at h
      by_cases hfate : request.fate = .waiting
      · rw [if_pos hfate] at h
        obtain ⟨rfl, _⟩ := List.cons.inj h
        refine ⟨[], requests, ?_, by simp, ?_⟩
        · rw [← hfate]
          rfl
        · rw [grantFirst, if_pos ⟨rfl, hfate⟩]
          rfl
      · rw [if_neg hfate] at h
        obtain ⟨before, after, hsplit, hbefore, hgrant⟩ := ih h
        refine ⟨request :: before, after, by rw [hsplit]; rfl, ?_, ?_⟩
        · intro other hother
          rcases List.mem_cons.mp hother with rfl | hother
          · exact hfate
          · exact hbefore other hother
        · rw [grantFirst, if_neg (fun hcase => hfate hcase.2), hgrant]
          rfl

end TurnRequest

/-! ## The books and the queue -/

/-- The queue is what the books say. -/
structure Kept (queue : List ClientKey) (turns : Turns) : Prop where
  queue : queue = turns.holder.toList ++ turns.clients .waiting
  /-- Whoever was called was granted a request, and nobody was called twice for one. -/
  calls : turns.calls = turns.clients .granted
  /-- Nobody was called while an older request was waiting. -/
  order : turns.requests.Pairwise fun older request =>
    request.fate = .granted → older.fate ≠ .waiting

/-- And nobody waits while nobody has the turn. -/
structure InTurn (queue : List ClientKey) (turns : Turns) : Prop extends Kept queue turns where
  idle : turns.holder = none → turns.clients .waiting = []

theorem inTurn_nil : InTurn [] {} := ⟨⟨rfl, rfl, List.Pairwise.nil⟩, fun _ => rfl⟩

theorem InTurn.holder (h : InTurn queue turns) : turns.holder = queue.head? := by
  rw [h.queue]
  cases hholder : turns.holder with
  | none => rw [h.idle hholder]; rfl
  | some key => rfl

theorem Kept.ask (h : Kept queue turns) (key : ClientKey) :
    Kept (queue ++ [key]) (turns.ask key) where
  queue := by
    rw [h.queue, List.append_assoc]
    exact congrArg (_ ++ ·)
      (TurnRequest.fated_append .waiting turns.requests [⟨key, .waiting⟩]).symm
  calls := by
    show turns.calls = TurnRequest.fated .granted (turns.requests ++ [⟨key, .waiting⟩])
    rw [h.calls, TurnRequest.fated_append]
    exact (List.append_nil _).symm
  order := by
    refine List.pairwise_append.mpr ⟨h.order, List.pairwise_singleton _ _, ?_⟩
    intro older _ request hrequest hgranted
    rw [List.mem_singleton.mp hrequest] at hgranted
    exact absurd hgranted (by simp)

theorem Turns.release_of_holder (h : turns.holder = some key) :
    (turns.release key).holder = none := by
  simp [Turns.release, h]

theorem Kept.release (h : Kept queue turns) (hholder : turns.holder = some key) :
    Kept queue.tail (turns.release key) where
  queue := by
    rw [h.queue, hholder, Turns.release_of_holder hholder]
    rfl
  calls := h.calls
  order := h.order

theorem Kept.leave (h : Kept queue turns) (key : ClientKey) :
    Kept (queue.filter (· != key)) (turns.leave key) where
  queue := by
    have hwaiting : (turns.leave key).clients .waiting =
        (turns.clients .waiting).filter (· != key) :=
      TurnRequest.fated_waiting_leave key turns.requests
    rw [h.queue, hwaiting, List.filter_append]
    congr 1
    cases hholder : turns.holder with
    | none => simp [Turns.leave, Turns.release, hholder]
    | some holder =>
        by_cases hsame : holder = key
        · simp [Turns.leave, Turns.release, hholder, hsame]
        · simp [Turns.leave, Turns.release, hholder, hsame, Option.filter]
  calls := by
    show turns.calls = TurnRequest.fated .granted (turns.requests.map (TurnRequest.leave key))
    rw [h.calls, TurnRequest.fated_granted_leave]
    rfl
  order := by
    refine List.pairwise_map.mpr (h.order.imp ?_)
    intro older request hpair
    rcases TurnRequest.leave_cases key request with ⟨_, _, heq⟩ | ⟨_, heq⟩
    · rw [heq]
      exact fun hgranted => absurd hgranted (by simp)
    · rw [heq]
      rcases TurnRequest.leave_cases key older with ⟨_, _, heq'⟩ | ⟨_, heq'⟩
      · rw [heq']
        exact fun _ => by simp
      · rw [heq']
        exact hpair

/-- When nobody has the turn, the head of the queue is granted it, and that is the oldest
request that waits. -/
theorem Kept.grant (h : Kept queue turns) (hholder : turns.holder = none) :
    InTurn queue (queue.head?.toList.foldl (fun turns key => turns.grant key) turns) := by
  have hqueue := h.queue
  rw [hholder] at hqueue
  cases queue with
  | nil => exact { h with idle := fun _ => hqueue.symm }
  | cons key rest =>
      have hwaiting : TurnRequest.fated .waiting turns.requests = key :: rest := hqueue.symm
      obtain ⟨before, later, hsplit, hbefore, hgrant⟩ := TurnRequest.grantFirst_of_head hwaiting
      have horder := h.order
      rw [hsplit] at horder hwaiting
      obtain ⟨hpairBefore, hpairLater, hacross⟩ := List.pairwise_append.mp horder
      obtain ⟨hlater, hpairLater⟩ := List.pairwise_cons.mp hpairLater
      -- nothing after the request was granted, since it was waiting
      have hnone : TurnRequest.fated .granted later = [] :=
        TurnRequest.fated_eq_nil fun request hmem hgranted => hlater request hmem hgranted rfl
      have hcalls := h.calls
      rw [Turns.clients, hsplit, TurnRequest.fated_append, TurnRequest.fated_cons, hnone] at hcalls
      rw [TurnRequest.fated_append, TurnRequest.fated_cons, if_pos rfl,
        TurnRequest.fated_eq_nil hbefore] at hwaiting
      have hrest : TurnRequest.fated .waiting later = rest := (List.cons.inj hwaiting).2
      refine ⟨⟨?_, ?_, ?_⟩, fun hidle => absurd hidle (by simp [Turns.grant])⟩
      · show key :: rest =
          key :: TurnRequest.fated .waiting (TurnRequest.grantFirst key turns.requests)
        rw [hgrant, TurnRequest.fated_append, TurnRequest.fated_cons,
          TurnRequest.fated_eq_nil hbefore, hrest]
        rfl
      · show turns.calls ++ [key] =
          TurnRequest.fated .granted (TurnRequest.grantFirst key turns.requests)
        rw [hcalls, hgrant, TurnRequest.fated_append, TurnRequest.fated_cons, if_pos rfl, hnone]
        simp
      · show (TurnRequest.grantFirst key turns.requests).Pairwise _
        rw [hgrant]
        refine List.pairwise_append.mpr ⟨hpairBefore, List.pairwise_cons.mpr ⟨?_, hpairLater⟩, ?_⟩
        · exact fun _ _ _ => by simp
        · exact fun older holder _ _ _ => hbefore older holder

/-! ## One operation -/

theorem cancelShutdown_isOk : (cancelShutdown session).isOk = true ↔ session.phase = .shutdown := by
  unfold cancelShutdown
  split
  · simp [Except.isOk, Except.toBool, *]
  · simp [Except.isOk, Except.toBool, *]

/-- What is heard when a logout is cancelled: the books begin anew. -/
theorem hear_cancels (h : InTurn session.interacting turns) (hphase : session.phase = .shutdown)
    (hcancels : Cancels session operation) : turns.hear session operation = {} := by
  have hok := cancelShutdown_isOk.mpr hphase
  rcases hcancels with rfl | ⟨key, rfl, hregistered, hhead⟩
  · simp [Turns.hear, hok]
  · have hreg : session.clients.contains key = true := KeyMap.contains_iff.mpr hregistered
    simp [Turns.hear, hreg, h.holder, hhead, hok]

/-- A request to cancel that is refused ends the turn like any other end of it. -/
theorem hear_done (h : InTurn session.interacting turns)
    (hreg : session.clients.contains key = true) {cancel : Bool}
    (hkept : ¬(session.phase = .shutdown
      ∧ Cancels session (.report key (.interactionDone cancel)))) :
    turns.hear session (.report key (.interactionDone cancel)) =
      if turns.holder = some key then turns.release key else turns := by
  by_cases hholder : turns.holder = some key
  · have hrefused : ¬(cancel = true ∧ (cancelShutdown session).isOk = true) := by
      rintro ⟨rfl, hok⟩
      exact hkept ⟨cancelShutdown_isOk.mp hok,
        .inr ⟨key, rfl, KeyMap.contains_iff.mp hreg, h.holder.symm.trans hholder⟩⟩
    simp only [Turns.hear, hreg, hholder, if_true, if_neg hrefused]
    rfl
  · simp [Turns.hear, hreg, hholder]

theorem hear_refused (hkept : ¬(session.phase = .shutdown ∧ Cancels session .cancelShutdown)) :
    turns.hear session .cancelShutdown = turns :=
  if_neg fun hok => hkept ⟨cancelShutdown_isOk.mp hok, .inl rfl⟩

/-- What is heard of any other operation is what the queue comes to, and somebody is called
if then nobody has the turn. -/
structure Heard (session : Session) (turns : Turns) (operation : Operation) : Prop where
  kept : Kept (queueAfter session operation) (turns.hear session operation)
  free : (turns.hear session operation).holder = none →
    nextTurn? session operation = (queueAfter session operation).head?
  taken : (turns.hear session operation).holder ≠ none → nextTurn? session operation = none

theorem heard_rest (h : InTurn session.interacting turns)
    (hqueue : queueAfter session operation = session.interacting)
    (hnext : nextTurn? session operation = none)
    (hhear : turns.hear session operation = turns) : Heard session turns operation := by
  refine ⟨?_, ?_, fun _ => hnext⟩
  · rw [hqueue, hhear]
    exact h.toKept
  · rw [hqueue, hhear, hnext, h.holder]
    exact Eq.symm

theorem heard_asks (h : InTurn session.interacting turns)
    (hreg : session.clients.contains key = true) :
    Heard session turns (.report key .requestInteraction) := by
  have hhear : turns.hear session (.report key .requestInteraction) = turns.ask key := by
    simp [Turns.hear, hreg]
  have hqueue : queueAfter session (.report key .requestInteraction) =
      session.interacting ++ [key] := by
    simp [queueAfter, hreg]
  have hholder : (turns.ask key).holder = session.interacting.head? := h.holder
  refine ⟨?_, ?_, ?_⟩
  · rw [hhear, hqueue]
    exact h.toKept.ask key
  · rw [hhear, hqueue, hholder]
    intro hnobody
    have hempty : session.interacting = [] := List.head?_eq_none_iff.mp hnobody
    simp [nextTurn?, hreg, hempty]
  · rw [hhear, hholder]
    intro hsomebody
    have hbusy : session.interacting ≠ [] := fun hempty => hsomebody (by rw [hempty]; rfl)
    simp [nextTurn?, hreg, hbusy]

theorem heard_done (h : InTurn session.interacting turns)
    (hreg : session.clients.contains key = true) {cancel : Bool}
    (hkept : ¬(session.phase = .shutdown
      ∧ Cancels session (.report key (.interactionDone cancel)))) :
    Heard session turns (.report key (.interactionDone cancel)) := by
  by_cases hhead : session.interacting.head? = some key
  · have hholder : turns.holder = some key := h.holder.trans hhead
    have hhear : turns.hear session (.report key (.interactionDone cancel)) =
        turns.release key := by
      rw [hear_done h hreg hkept, if_pos hholder]
    have hqueue : queueAfter session (.report key (.interactionDone cancel)) =
        session.interacting.tail := by
      simp [queueAfter, hreg, hhead]
    have hnone := Turns.release_of_holder hholder
    refine ⟨?_, ?_, ?_⟩
    · rw [hhear, hqueue]
      exact h.toKept.release hholder
    · intro _
      rw [hqueue]
      simp [nextTurn?, hreg, hhead]
    · rw [hhear, hnone]
      exact fun hsomebody => absurd rfl hsomebody
  · have hholder : turns.holder ≠ some key := fun heq => hhead (h.holder.symm.trans heq)
    refine heard_rest h ?_ ?_ ?_
    · simp [queueAfter, hreg, hhead]
    · simp [nextTurn?, hreg, hhead]
    · rw [hear_done h hreg hkept, if_neg hholder]

/-- A client leaves. If it had the turn, the turn passes on. -/
theorem heard_leaves (h : InTurn session.interacting turns) (key : ClientKey)
    (hhear : turns.hear session operation = turns.leave key)
    (hqueue : queueAfter session operation = session.interacting.filter (· != key))
    (hnext : nextTurn? session operation = if session.interacting.head? = some key
      then (session.interacting.filter (· != key)).head? else none) :
    Heard session turns operation := by
  have hholder : (turns.leave key).holder = session.interacting.head?.filter (· != key) := by
    rw [← h.holder]
    rfl
  refine ⟨?_, ?_, ?_⟩
  · rw [hhear, hqueue]
    exact h.toKept.leave key
  · rw [hhear, hqueue, hnext, hholder]
    intro hnobody
    cases hempty : session.interacting with
    | nil => rfl
    | cons head rest =>
        -- whoever had the turn was the client that left
        have hsame : head = key := by
          by_contra hne
          simp [hempty, Option.filter, hne] at hnobody
        simp [hsame]
  · rw [hhear, hnext, hholder]
    intro hsomebody
    refine if_neg fun hhead => hsomebody ?_
    simp [hhead]

theorem heard (h : InTurn session.interacting turns)
    (hkept : ¬(session.phase = .shutdown ∧ Cancels session operation)) :
    Heard session turns operation := by
  cases operation with
  | report key event =>
      by_cases hreg : session.clients.contains key = true
      · cases event with
        | requestInteraction => exact heard_asks h hreg
        | interactionDone cancel => exact heard_done h hreg hkept
        | saveYourselfDone =>
            exact heard_leaves h key (by simp [Turns.hear, hreg]) (by simp [queueAfter, hreg])
              (by simp [nextTurn?, hreg])
        | disconnected =>
            exact heard_leaves h key (by simp [Turns.hear, hreg]) (by simp [queueAfter, hreg])
              (by simp [nextTurn?, hreg])
        | _ =>
            exact heard_rest h (by simp [queueAfter, hreg]) (by simp [nextTurn?, hreg])
              (by simp [Turns.hear, hreg])
      · exact heard_rest h (by simp [queueAfter, hreg]) (by simp [nextTurn?, hreg])
          (by simp [Turns.hear, hreg])
  | cancelShutdown => exact heard_rest h rfl rfl (hear_refused hkept)
  | _ => exact heard_rest h rfl rfl rfl

theorem foldl_see (turns : Turns) (effects : List Effect) :
    effects.foldl Turns.see turns =
      (interactions effects).foldl (fun turns key => turns.grant key) turns := by
  induction effects generalizing turns with
  | nil => rfl
  | cons effect effects ih =>
      rw [List.foldl_cons, ih]
      -- only a turn that begins is written down
      cases effect with
      | called key call =>
          cases call with
          | interact => rfl
          | _ => rfl
      | _ => rfl

/-- Nobody is called when a logout is cancelled. -/
theorem interactions_cancelled {turn : Turn} (h : cancelShutdown session = .ok turn) :
    interactions turn.effects = [] := by
  rw [cancelShutdown_eq h]
  exact interactions_callEach _ (by simp)

/-- **The books and the queue agree after every operation.** -/
theorem inTurn_step (hinv : LogoutInv session) (h : InTurn session.interacting turns)
    (step : Step) :
    InTurn (take step session).session.interacting (turns.after session step) := by
  obtain ⟨w, operation⟩ := step
  show InTurn (perform w operation session).session.interacting
    ((perform w operation session).effects.foldl Turns.see (turns.hear session operation))
  cases queueStep w hinv operation with
  | cancels hcancels hturn =>
      have hphase : session.phase = .shutdown := cancelShutdown_isOk.mp (by rw [hturn]; rfl)
      rw [foldl_see, interactions_cancelled hturn, hear_cancels h hphase hcancels,
        cancelShutdown_eq hturn]
      exact inTurn_nil
  | moves hkept hqueue hturns =>
      have hheard := heard h hkept
      rw [foldl_see, hqueue, hturns]
      by_cases hholder : (turns.hear session operation).holder = none
      · rw [hheard.free hholder]
        exact hheard.kept.grant hholder
      · rw [hheard.taken hholder]
        exact { hheard.kept with idle := fun hnone => absurd hnone hholder }

theorem toList_eq_append_cons {next : Option ClientKey} {before after : List ClientKey}
    (h : next.toList = before ++ key :: after) : before = [] ∧ next = some key := by
  cases next with
  | none => exact absurd h (by simp)
  | some next =>
      cases before with
      | nil => exact ⟨rfl, congrArg some (List.cons.inj h).1⟩
      | cons first before => exact absurd (List.cons.inj h).2 (by simp)

/-- **Nobody is called while somebody has the turn, and only the first that waits is.** -/
theorem called_in_turn (hinv : LogoutInv session) (h : InTurn session.interacting turns)
    (step : Step) {earlier later : List Effect}
    (heffects : (take step session).effects = earlier ++ .called key .interact :: later) :
    (earlier.foldl Turns.see (turns.hear session step.2)).holder = none
      ∧ ((earlier.foldl Turns.see (turns.hear session step.2)).clients .waiting).head? =
        some key := by
  obtain ⟨w, operation⟩ := step
  have hsplit : interactions (perform w operation session).effects =
      interactions earlier ++ key :: interactions later := by
    show interactions (take (w, operation) session).effects = _
    rw [heffects, interactions_append]
    rfl
  cases queueStep w hinv operation with
  | cancels hcancels hturn =>
      rw [interactions_cancelled hturn] at hsplit
      exact absurd hsplit (by simp)
  | moves hkept hqueue hturns =>
      have hheard := heard h hkept
      rw [hturns] at hsplit
      -- one client is called at most, so nothing was written down since the operation
      obtain ⟨hfirst, hnext⟩ := toList_eq_append_cons hsplit
      have hholder : (turns.hear session operation).holder = none := by
        by_contra htaken
        rw [hheard.taken htaken] at hnext
        exact absurd hnext (by simp)
      have hqueued := hheard.kept.queue
      rw [hholder] at hqueued
      rw [foldl_see, hfirst, List.foldl_nil]
      refine ⟨hholder, ?_⟩
      rw [← hnext, hheard.free hholder, hqueued]
      rfl

/-! ## What becomes of a request -/

/-- What an operation can make of a request. -/
inductive Becomes (operation : Operation) (effects : List Effect) :
    TurnRequest → TurnRequest → Prop
  | stays (request : TurnRequest) : Becomes operation effects request request
  /-- Its client is called. -/
  | granted {key : ClientKey} (h : .called key .interact ∈ effects) :
      Becomes operation effects ⟨key, .waiting⟩ ⟨key, .granted⟩
  /-- Its client has saved or gone away. -/
  | dropped {key : ClientKey}
      (h : operation = .report key .saveYourselfDone ∨ operation = .report key .disconnected) :
      Becomes operation effects ⟨key, .waiting⟩ ⟨key, .dropped⟩

theorem Becomes.trans {effects : List Effect} {request later last : TurnRequest}
    (h : Becomes operation effects request later) (hlast : Becomes operation effects later last) :
    Becomes operation effects request last := by
  cases h with
  | stays => exact hlast
  | granted h =>
      cases hlast with
      | stays => exact .granted h
  | dropped h =>
      cases hlast with
      | stays => exact .dropped h

/-- Each of the requests, told apart by its place, becomes what an operation can make of it. -/
def AllBecome (operation : Operation) (effects : List Effect) (requests later : List TurnRequest) :
    Prop :=
  ∀ (place : Nat) (request : TurnRequest), requests[place]? = some request →
    ∃ next, later[place]? = some next ∧ Becomes operation effects request next

theorem allBecome_rest {effects : List Effect} (requests : List TurnRequest) :
    AllBecome operation effects requests requests :=
  fun _ request h => ⟨request, h, .stays request⟩

theorem AllBecome.trans {effects : List Effect} {requests later last : List TurnRequest}
    (h : AllBecome operation effects requests later)
    (hlast : AllBecome operation effects later last) :
    AllBecome operation effects requests last := by
  intro place request hrequest
  obtain ⟨next, hnext, hbecomes⟩ := h place request hrequest
  obtain ⟨final, hfinal, hbecomes'⟩ := hlast place next hnext
  exact ⟨final, hfinal, hbecomes.trans hbecomes'⟩

theorem allBecome_grantFirst {effects : List Effect} (h : .called key .interact ∈ effects)
    (requests : List TurnRequest) :
    AllBecome operation effects requests (TurnRequest.grantFirst key requests) := by
  induction requests with
  | nil => exact allBecome_rest []
  | cons first requests ih =>
      intro place request hrequest
      unfold TurnRequest.grantFirst
      split
      · rename_i hcase
        cases place with
        | zero =>
            obtain rfl : first = request := Option.some.inj hrequest
            obtain ⟨key', fate⟩ := first
            obtain ⟨rfl, rfl⟩ := hcase
            exact ⟨_, rfl, .granted h⟩
        | succ place => exact ⟨request, hrequest, .stays request⟩
      · cases place with
        | zero => exact ⟨request, hrequest, .stays request⟩
        | succ place => exact ih place request hrequest

theorem allBecome_leave {effects : List Effect} (requests : List TurnRequest)
    (h : operation = .report key .saveYourselfDone ∨ operation = .report key .disconnected) :
    AllBecome operation effects requests (requests.map (TurnRequest.leave key)) := by
  intro place request hrequest
  refine ⟨request.leave key, by rw [List.getElem?_map, hrequest]; rfl, ?_⟩
  rcases TurnRequest.leave_cases key request with ⟨hkey, hfate, heq⟩ | ⟨_, heq⟩
  · rw [heq]
    obtain ⟨key', fate⟩ := request
    obtain rfl : key' = key := hkey
    obtain rfl : fate = .waiting := hfate
    exact .dropped h
  · rw [heq]
    exact .stays request

theorem allBecome_ask {effects : List Effect} (requests : List TurnRequest)
    (request : TurnRequest) :
    AllBecome operation effects requests (requests ++ [request]) := by
  intro place old hold
  have hplace := (List.getElem?_eq_some_iff.mp hold).1
  exact ⟨old, (List.getElem?_append_left hplace).trans hold, .stays old⟩

theorem allBecome_hear {effects : List Effect}
    (hkept : ¬(session.phase = .shutdown ∧ Cancels session operation))
    (h : InTurn session.interacting turns) :
    AllBecome operation effects turns.requests (turns.hear session operation).requests := by
  cases operation with
  | report key event =>
      by_cases hreg : session.clients.contains key = true
      · cases event with
        | requestInteraction =>
            simp only [Turns.hear, hreg]
            exact allBecome_ask _ _
        | interactionDone cancel =>
            rw [hear_done h hreg hkept]
            split
            · exact allBecome_rest _
            · exact allBecome_rest _
        | saveYourselfDone =>
            simp only [Turns.hear, hreg]
            exact allBecome_leave _ (.inl rfl)
        | disconnected =>
            simp only [Turns.hear, hreg]
            exact allBecome_leave _ (.inr rfl)
        | _ =>
            simp only [Turns.hear, hreg]
            exact allBecome_rest _
      · simp only [Turns.hear, hreg]
        exact allBecome_rest _
  | cancelShutdown =>
      rw [hear_refused hkept]
      exact allBecome_rest _
  | _ => exact allBecome_rest _

theorem allBecome_see {effects : List Effect} (seen : List Effect) (turns : Turns)
    (h : ∀ effect ∈ seen, effect ∈ effects) :
    AllBecome operation effects turns.requests (seen.foldl Turns.see turns).requests := by
  induction seen generalizing turns with
  | nil => exact allBecome_rest _
  | cons effect seen ih =>
      refine AllBecome.trans ?_ (ih _ fun other hother => h other (List.mem_cons_of_mem _ hother))
      have hmem := h effect List.mem_cons_self
      cases effect with
      | called key call =>
          cases call with
          | interact => exact allBecome_grantFirst hmem _
          | _ => exact allBecome_rest _
      | _ => exact allBecome_rest _

/-- **A request waits until its client is called, saves or goes away.** -/
theorem allBecome_step (h : InTurn session.interacting turns) (step : Step)
    (hkept : ¬(session.phase = .shutdown ∧ Cancels session step.2)) :
    AllBecome step.2 (take step session).effects turns.requests
      (turns.after session step).requests :=
  (allBecome_hear hkept h).trans (allBecome_see _ _ fun _ he => he)

/-! ## Every run -/

/-- The books of a run agree with its queue. -/
theorem inTurn_run (hinv : LogoutInv session) (h : InTurn session.interacting turns)
    (steps : List Step) :
    InTurn (run session steps).session.interacting (turns.afterRun session steps) := by
  induction steps generalizing session turns with
  | nil => exact h
  | cons step steps ih => exact ih (logoutInv_step hinv step) (inTurn_step hinv h step)

/-- What a run leaves of the turns with the user, and what any next step does to them. -/
structure FairTurns (start : Session) (steps : List Step) : Prop where
  /-- Whoever has the turn is at the head of the queue. -/
  holder : (Turns.afterRun start {} steps).holder = (run start steps).session.interacting.head?
  nobody : (Turns.afterRun start {} steps).holder = none ↔
    (run start steps).session.interacting = []
  /-- All requests that wait are in the queue behind it, in the order in which they came. -/
  queue : (run start steps).session.interacting =
    (Turns.afterRun start {} steps).holder.toList
      ++ (Turns.afterRun start {} steps).clients .waiting
  /-- Since a logout was last cancelled, the requests that were granted are the calls, in the
  order in which they came. -/
  calls : (Turns.afterRun start {} steps).calls = (Turns.afterRun start {} steps).clients .granted
  /-- None of them was granted while an older one was waiting. -/
  order : (Turns.afterRun start {} steps).requests.Pairwise fun older request =>
    request.fate = .granted → older.fate ≠ .waiting
  /-- A client is called when nobody has the turn, and its request is the oldest that waits. -/
  called : ∀ step key earlier later,
    (turnAt start steps step).effects = earlier ++ .called key .interact :: later →
    let heard := (Turns.afterRun start {} steps).hear (run start steps).session step.2
    (earlier.foldl Turns.see heard).holder = none
      ∧ ((earlier.foldl Turns.see heard).clients .waiting).head? = some key
  /-- Until a logout is cancelled, a request waits until its client is called, saves or goes
  away. -/
  fates : ∀ step, ¬((run start steps).session.phase = .shutdown
      ∧ Cancels (run start steps).session step.2) →
    AllBecome step.2 (turnAt start steps step).effects (Turns.afterRun start {} steps).requests
      ((Turns.afterRun start {} steps).after (run start steps).session step).requests

/-- **Turns with the user are fair.** -/
theorem turns_fair (manifests : List Manifest) (ids : ClientIds) (name : Option String)
    (phaseTimeout : Nat) (steps : List Step) :
    FairTurns { new manifests ids with name, phaseTimeout } steps := by
  have hinit := logoutInv_init manifests ids name phaseTimeout
  have hinv := logoutInv_run hinit steps
  have hturns := inTurn_run hinit inTurn_nil steps
  exact {
    holder := hturns.holder
    nobody := by rw [hturns.holder, List.head?_eq_none_iff]
    queue := hturns.queue
    calls := hturns.calls
    order := hturns.order
    called := fun step _ _ _ heffects => called_in_turn hinv hturns step heffects
    fates := fun step hkept => allBecome_step hturns step hkept }

/-- A client that asks twice has its second turn after the other one, and a request to cancel a
logout that there is not passes the turn on. -/
example : (Turns.afterRun pair {} [(still, .report 1 .requestInteraction),
      (still, .report 2 .requestInteraction), (still, .report 1 .requestInteraction),
      (still, .report 1 (.interactionDone true))]).requests =
    [⟨1, .granted⟩, ⟨2, .granted⟩, ⟨1, .waiting⟩] := rfl

end Xsmp.Session
