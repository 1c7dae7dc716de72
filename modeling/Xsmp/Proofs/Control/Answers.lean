import Mathlib.Data.List.Nodup
import Xsmp.Proofs.Control.Attendant

/-!
# Requests are answered one to one

On each connection the answers belong to the lines in their order, and what the manager has
applied for it are the requests among these lines, each once. What carries this through every
interleaving is where a request stands: while an attendant waits, its request is either in the
queue, once and under its own ticket, or it has been applied and its answer is there.

Nothing is lost either: an attendant with nothing left to do has answered everything, and as long
as the loop of the manager runs, every attendant whose other side is there can get to that point.
-/

namespace Xsmp

/-! ## What the manager has applied -/

theorem Manager.applied_snoc (n : Nat) (manager : Manager) (history : List Dealing)
    (dealing : Dealing) :
    manager.applied n (history ++ [dealing]) =
      manager.applied n history ++
        dealing.results n (manager.handleEach (history.map Dealing.step)).manager := by
  induction history generalizing manager with
  | nil => exact List.append_nil _
  | cons first history ih =>
      rw [List.cons_append, applied, ih, applied, List.append_assoc]
      rfl

namespace Exchange

open ControlEvent (ofRequest?)

variable {exchange next : Exchange} {manager : Manager} {n m : Nat} {attendant : Attendant}
  {applied results : List (ControlRequest × ControlResponse)}
  {dealt : List (Option ControlRequest)} {pending : Option ControlRequest}

@[simp] theorem change_attendant_self (exchange : Exchange) (n : Nat) (attendant : Attendant) :
    (exchange.change n attendant).attendant n = attendant :=
  Function.update_self ..

theorem change_attendant_of_ne (h : m ≠ n) (exchange : Exchange) (attendant : Attendant) :
    (exchange.change n attendant).attendant m = exchange.attendant m :=
  Function.update_of_ne h ..

/-! ## Tickets -/

/-- A ticket is given once, and as long as a request is in the queue its attendant waits and
there is no answer. -/
structure Tickets (exchange : Exchange) : Prop where
  issued : ∀ {n ticket}, (exchange.attendant n).awaits = some ticket → ticket < exchange.ticket
  own : ∀ {n m ticket}, (exchange.attendant n).awaits = some ticket →
    (exchange.attendant m).awaits = some ticket → n = m
  called : ∀ {call}, call ∈ exchange.calls →
    (exchange.attendant call.origin).awaits = some call.ticket ∧
      exchange.replies call.ticket = none
  once : (exchange.calls.map Call.ticket).Nodup
  unused : ∀ {ticket}, exchange.ticket ≤ ticket → exchange.replies ticket = none

/-- An attendant that waits for nothing new, and still for its request in the queue. -/
theorem Tickets.change (h : Tickets exchange)
    (hawaits : ∀ ticket, attendant.awaits = some ticket →
      (exchange.attendant n).awaits = some ticket)
    (hcalled : ∀ call ∈ exchange.calls, call.origin = n → attendant.awaits = some call.ticket) :
    Tickets (exchange.change n attendant) := by
  have hold : ∀ {m ticket}, ((exchange.change n attendant).attendant m).awaits = some ticket →
      (exchange.attendant m).awaits = some ticket := by
    intro m ticket hticket
    by_cases hm : m = n
    · subst hm
      rw [change_attendant_self] at hticket
      exact hawaits ticket hticket
    · rwa [change_attendant_of_ne hm] at hticket
  refine ⟨fun hn => h.issued (hold hn), fun hn hm => h.own (hold hn) (hold hm), ?_, h.once,
    h.unused⟩
  intro call hcall
  refine ⟨?_, (h.called hcall).2⟩
  by_cases horigin : call.origin = n
  · rw [horigin, change_attendant_self]
    exact hcalled call hcall horigin
  · rw [change_attendant_of_ne horigin]
    exact (h.called hcall).1

/-- An attendant that waits as before. -/
theorem Tickets.change_same (h : Tickets exchange)
    (hawaits : attendant.awaits = (exchange.attendant n).awaits) :
    Tickets (exchange.change n attendant) := by
  refine h.change (fun ticket hticket => hawaits ▸ hticket) fun call hcall horigin => ?_
  rw [hawaits, ← horigin]
  exact (h.called hcall).1

/-- A free attendant has nothing in the queue. -/
theorem Tickets.not_called (h : Tickets exchange) (hfree : (exchange.attendant n).awaits = none)
    {call : Call} (hcall : call ∈ exchange.calls) : call.origin ≠ n := by
  intro horigin
  have hawaits := (h.called hcall).1
  rw [horigin, hfree] at hawaits
  cases hawaits

theorem Tickets.asks (h : Tickets exchange) {request : ControlRequest}
    (hfree : (exchange.attendant n).awaits = none)
    (hawaits : attendant.awaits = some exchange.ticket) :
    Tickets ((exchange.call n request).change n attendant) := by
  have hcases : ∀ {m ticket},
      (((exchange.call n request).change n attendant).attendant m).awaits = some ticket →
      (m = n ∧ ticket = exchange.ticket) ∨
        (m ≠ n ∧ (exchange.attendant m).awaits = some ticket) := by
    intro m ticket hticket
    by_cases hm : m = n
    · subst hm
      rw [change_attendant_self, hawaits, Option.some.injEq] at hticket
      exact .inl ⟨rfl, hticket.symm⟩
    · rw [change_attendant_of_ne hm] at hticket
      exact .inr ⟨hm, hticket⟩
  refine ⟨fun hn => ?_, fun {k l ticket} hk hl => ?_, fun {call} hcall => ?_, ?_, fun hle => ?_⟩
  · rcases hcases hn with ⟨_, rfl⟩ | ⟨_, hold⟩
    · exact Nat.lt_succ_self _
    · exact Nat.lt_succ_of_lt (h.issued hold)
  · rcases hcases hk with ⟨rfl, rfl⟩ | ⟨_, hk⟩
    · rcases hcases hl with ⟨rfl, _⟩ | ⟨_, hl⟩
      · rfl
      · exact absurd (h.issued hl) (Nat.lt_irrefl _)
    · rcases hcases hl with ⟨_, rfl⟩ | ⟨_, hl⟩
      · exact absurd (h.issued hk) (Nat.lt_irrefl _)
      · exact h.own hk hl
  · rcases List.mem_append.mp hcall with hcall | hcall
    · rw [change_attendant_of_ne (h.not_called hfree hcall)]
      exact h.called hcall
    · obtain rfl := List.mem_singleton.mp hcall
      rw [change_attendant_self]
      exact ⟨hawaits, h.unused (Nat.le_refl _)⟩
  · -- all tickets in the queue were given before
    show ((exchange.calls ++ _).map Call.ticket).Nodup
    rw [List.map_append]
    refine List.nodup_append.mpr ⟨h.once, List.pairwise_singleton _ _, ?_⟩
    rintro ticket hticket _ hnew rfl
    obtain ⟨call, hcall, rfl⟩ := List.mem_map.mp hticket
    have hlt := h.issued (h.called hcall).1
    rw [List.mem_singleton.mp hnew] at hlt
    exact absurd hlt (Nat.lt_irrefl _)
  · exact h.unused (Nat.le_of_succ_le hle)

theorem Tickets.applies (h : Tickets exchange) {call : Call} {calls : List Call}
    (hfirst : exchange.calls = call :: calls) (dealing : Dealing) (response : ControlResponse) :
    Tickets ((exchange.deal dealing).reply calls call.ticket response) := by
  have hmem : ∀ {other}, other ∈ calls → other ∈ exchange.calls := fun hother => by
    rw [hfirst]
    exact List.mem_cons_of_mem _ hother
  have honce := h.once
  rw [hfirst, List.map_cons, List.nodup_cons] at honce
  refine ⟨h.issued, h.own, fun {other} hother => ⟨(h.called (hmem hother)).1, ?_⟩, honce.2,
    fun {ticket} hle => ?_⟩
  · have hne : other.ticket ≠ call.ticket := fun heq =>
      honce.1 (heq ▸ List.mem_map_of_mem hother)
    exact (Function.update_of_ne hne ..).trans (h.called (hmem hother)).2
  · have hlt : call.ticket < exchange.ticket :=
      h.issued (h.called (by rw [hfirst]; exact List.mem_cons_self)).1
    have hne : ticket ≠ call.ticket := Nat.ne_of_gt (Nat.lt_of_lt_of_le hlt hle)
    exact (Function.update_of_ne hne ..).trans (h.unused hle)

/-! ## How far a connection has come -/

/-- Where the request is that an attendant waits for, if it waits for one. Until it has been
applied, what was applied are the results that were written. -/
inductive Pending (exchange : Exchange) (n : Nat)
    (results : List (ControlRequest × ControlResponse)) :
    Option ControlRequest → List (ControlRequest × ControlResponse) → Prop
  | free (awaits : (exchange.attendant n).awaits = none) : Pending exchange n results none results
  | called {ticket : Nat} {request : ControlRequest}
      (awaits : (exchange.attendant n).awaits = some ticket)
      (call : { ticket, request, origin := n } ∈ exchange.calls) :
    Pending exchange n results (some request) results
  | replied {ticket : Nat} {request : ControlRequest} {response : ControlResponse}
      (awaits : (exchange.attendant n).awaits = some ticket)
      (reply : exchange.replies ticket = some response) :
    Pending exchange n results (some request) (results ++ [(request, response)])

/-- Which lines an attendant has dealt with, and what is pending. -/
structure Standing (exchange : Exchange) (n : Nat)
    (applied : List (ControlRequest × ControlResponse)) (dealt : List (Option ControlRequest))
    (pending : Option ControlRequest) (results : List (ControlRequest × ControlResponse)) :
    Prop where
  events : (exchange.attendant n).events =
    dealt.map ofRequest? ++ (pending.toList.map .request ++ (exchange.attendant n).ahead)
  answered : Answered dealt results (exchange.attendant n).written
  pending : Pending exchange n results pending applied

/-- A connection that nothing is done about stays where it is. -/
theorem Pending.stays (h : Pending exchange n results pending applied)
    (hawaits : (next.attendant n).awaits = (exchange.attendant n).awaits)
    (hcalls : ∀ call ∈ exchange.calls, call.origin = n → call ∈ next.calls)
    (hreplies : ∀ ticket, (exchange.attendant n).awaits = some ticket →
      exchange.replies ticket ≠ none → next.replies ticket = exchange.replies ticket) :
    Pending next n results pending applied := by
  cases h with
  | free awaits => exact .free (hawaits.trans awaits)
  | called awaits call => exact .called (hawaits.trans awaits) (hcalls _ call rfl)
  | @replied ticket _ response awaits reply =>
      have hreply := hreplies ticket awaits (by rw [reply]; exact Option.some_ne_none _)
      exact .replied (hawaits.trans awaits) (hreply.trans reply)

theorem Standing.stays (h : Standing exchange n applied dealt pending results)
    (hattendant : next.attendant n = exchange.attendant n)
    (hcalls : ∀ call ∈ exchange.calls, call.origin = n → call ∈ next.calls)
    (hreplies : ∀ ticket, (exchange.attendant n).awaits = some ticket →
      exchange.replies ticket ≠ none → next.replies ticket = exchange.replies ticket) :
    Standing next n applied dealt pending results where
  events := by rw [hattendant, h.events]
  answered := by rw [hattendant]; exact h.answered
  pending := h.pending.stays (by rw [hattendant]) hcalls hreplies

/-- What is kept whatever happens. -/
structure Kept (manager : Manager) (exchange : Exchange) : Prop where
  manager_eq : exchange.manager =
    (manager.handleEach (exchange.history.map Dealing.step)).manager
  origin : ∀ dealing ∈ exchange.history, ∀ request, dealing.step.2 = .control request →
    ∃ n, dealing.origin = some n
  tickets : Tickets exchange
  sound : ∀ n, (exchange.attendant n).Sound
  standing : ∀ n, ∃ dealt pending results,
    Standing exchange n (manager.applied n exchange.history) dealt pending results

theorem kept_start (manager : Manager) : Kept manager { manager } where
  manager_eq := rfl
  origin _ h := absurd h List.not_mem_nil
  tickets := {
    issued := fun h => nomatch h
    own := fun h => nomatch h
    called := fun h => absurd h List.not_mem_nil
    once := List.nodup_nil
    unused := fun _ => rfl }
  sound _ := ⟨rfl, fun h => nomatch h⟩
  standing _ := ⟨[], none, [], rfl, .nothing, .free rfl⟩

/-- One connection changes, and the rest stays. -/
theorem Kept.change (h : Kept manager exchange) (htickets : Tickets (exchange.change n attendant))
    (hsound : attendant.Sound)
    (hstanding : ∃ dealt pending results, Standing (exchange.change n attendant) n
      (manager.applied n exchange.history) dealt pending results) :
    Kept manager (exchange.change n attendant) := by
  refine ⟨h.manager_eq, h.origin, htickets, fun m => ?_, fun m => ?_⟩
  · by_cases hm : m = n
    · rw [hm, change_attendant_self]
      exact hsound
    · rw [change_attendant_of_ne hm]
      exact h.sound m
  · by_cases hm : m = n
    · rw [hm]
      exact hstanding
    · obtain ⟨dealt, pending, results, hdealt⟩ := h.standing m
      exact ⟨dealt, pending, results, hdealt.stays (change_attendant_of_ne hm ..)
        (fun _ hcall _ => hcall) fun _ _ _ => rfl⟩

/-- More is read on a connection. -/
theorem Kept.hears (h : Kept manager exchange) {new : List ControlEvent}
    (hheard : Attendant.Heard (exchange.attendant n) attendant new) :
    Kept manager (exchange.change n attendant) := by
  obtain ⟨dealt, pending, results, hdealt⟩ := h.standing n
  have hself := change_attendant_self exchange n attendant
  refine h.change (h.tickets.change_same hheard.awaits) (hheard.sound (h.sound n))
    ⟨dealt, pending, results, ?_, ?_, ?_⟩
  · rw [hself, hheard.events, hdealt.events, hheard.ahead, List.append_assoc, List.append_assoc]
  · rw [hself, hheard.written]
    exact hdealt.answered
  · refine hdealt.pending.stays ?_ (fun _ hcall _ => hcall) fun _ _ _ => rfl
    rw [hself, hheard.awaits]

/-- An attendant that waits for nothing has been answered for everything that was applied. -/
theorem Pending.of_free (h : Pending exchange n results pending applied)
    (hfree : (exchange.attendant n).awaits = none) : pending = none ∧ results = applied := by
  cases h with
  | free => exact ⟨rfl, rfl⟩
  | called awaits | replied awaits =>
      rw [hfree] at awaits
      cases awaits

/-- An attendant that can deal with the next line. -/
theorem Kept.of_free (h : Kept manager exchange) (hfree : (exchange.attendant n).awaits = none) :
    ∃ dealt, (exchange.attendant n).events =
        dealt.map ofRequest? ++ (exchange.attendant n).ahead ∧
      Answered dealt (manager.applied n exchange.history) (exchange.attendant n).written := by
  obtain ⟨dealt, pending, results, hdealt⟩ := h.standing n
  obtain ⟨rfl, rfl⟩ := hdealt.pending.of_free hfree
  exact ⟨dealt, hdealt.events, hdealt.answered⟩

theorem Kept.refuses (h : Kept manager exchange) {rest : List ControlEvent} (text : String)
    (free : (exchange.attendant n).Free)
    (first : (exchange.attendant n).ahead = .misunderstood :: rest) :
    Kept manager (exchange.change n { exchange.attendant n with
      ahead := rest
      written := (exchange.attendant n).written ++ [.error "bad_request" text] }) := by
  obtain ⟨hclosed, _, hawaits⟩ := free
  obtain ⟨dealt, hevents, hanswered⟩ := h.of_free hawaits
  refine h.change (h.tickets.change_same rfl)
    ⟨(h.sound n).reader, fun hclose => absurd (hclosed.symm.trans hclose) Bool.false_ne_true⟩
    ⟨dealt ++ [none], none, manager.applied n exchange.history, ?_, ?_, ?_⟩
  · rw [change_attendant_self, List.map_append, List.append_assoc]
    exact hevents.trans (by rw [first]; rfl)
  · rw [change_attendant_self]
    exact hanswered.refused text
  · exact .free (by rw [change_attendant_self]; exact hawaits)

theorem Kept.closes (h : Kept manager exchange) {rest : List ControlEvent}
    (free : (exchange.attendant n).Free)
    (first : (exchange.attendant n).ahead = .closed :: rest) :
    Kept manager (exchange.change n { exchange.attendant n with closed := true }) := by
  obtain ⟨_, _, hawaits⟩ := free
  obtain ⟨dealt, hevents, hanswered⟩ := h.of_free hawaits
  refine h.change (h.tickets.change_same rfl)
    ⟨(h.sound n).reader, fun _ => by rw [first]; rfl⟩
    ⟨dealt, none, manager.applied n exchange.history, ?_, ?_, ?_⟩
  · rw [change_attendant_self]
    exact hevents
  · rw [change_attendant_self]
    exact hanswered
  · exact .free (by rw [change_attendant_self]; exact hawaits)

theorem Kept.asks (h : Kept manager exchange) {request : ControlRequest}
    {rest : List ControlEvent} (free : (exchange.attendant n).Free)
    (first : (exchange.attendant n).ahead = .request request :: rest) :
    Kept manager ((exchange.call n request).change n { exchange.attendant n with
      ahead := rest
      awaits := some exchange.ticket }) := by
  obtain ⟨hclosed, _, hawaits⟩ := free
  obtain ⟨dealt, hevents, hanswered⟩ := h.of_free hawaits
  refine ⟨h.manager_eq, h.origin, h.tickets.asks hawaits rfl, fun m => ?_, fun m => ?_⟩
  · by_cases hm : m = n
    · subst hm
      rw [change_attendant_self]
      exact ⟨(h.sound m).reader,
        fun hclose => absurd (hclosed.symm.trans hclose) Bool.false_ne_true⟩
    · rw [change_attendant_of_ne hm]
      exact h.sound m
  · by_cases hm : m = n
    · subst hm
      refine ⟨dealt, some request, manager.applied m exchange.history, ?_, ?_, ?_⟩
      · rw [change_attendant_self]
        exact hevents.trans (by rw [first]; rfl)
      · rw [change_attendant_self]
        exact hanswered
      · have hcall : { ticket := exchange.ticket, request, origin := m } ∈
            (exchange.call m request).calls := List.mem_append_right _ List.mem_cons_self
        exact .called (by rw [change_attendant_self]) hcall
    · obtain ⟨others, pending, results, hothers⟩ := h.standing m
      exact ⟨others, pending, results, hothers.stays (change_attendant_of_ne hm ..)
        (fun _ hcall _ => List.mem_append_left _ hcall) fun _ _ _ => rfl⟩

/-- A request that was answered is not in the queue anymore. -/
theorem Tickets.not_called_of_reply (h : Tickets exchange) {ticket : Nat}
    {response : ControlResponse} (awaits : (exchange.attendant n).awaits = some ticket)
    (reply : exchange.replies ticket = some response) {call : Call}
    (hcall : call ∈ exchange.calls) : call.origin ≠ n := by
  intro horigin
  obtain ⟨hawaits, hnone⟩ := h.called hcall
  rw [horigin, awaits, Option.some.injEq] at hawaits
  rw [← hawaits, reply] at hnone
  cases hnone

theorem Kept.answers (h : Kept manager exchange) {ticket : Nat} {response : ControlResponse}
    (awaits : (exchange.attendant n).awaits = some ticket)
    (reply : exchange.replies ticket = some response) :
    Kept manager (exchange.change n { exchange.attendant n with
      awaits := none
      written := (exchange.attendant n).written ++ [response] }) := by
  have hcalls : ∀ call ∈ exchange.calls, call.origin ≠ n :=
    fun _ hcall => h.tickets.not_called_of_reply awaits reply hcall
  refine h.change
    (h.tickets.change (fun _ hnone => nomatch hnone)
      fun call hcall horigin => absurd horigin (hcalls call hcall))
    ⟨(h.sound n).reader, (h.sound n).closed⟩ ?_
  obtain ⟨dealt, pending, results, hevents, hanswered, hpending⟩ := h.standing n
  generalize happlied : manager.applied n exchange.history = applied at hpending ⊢
  cases hpending with
  | free hfree =>
      rw [hfree] at awaits
      cases awaits
  | called _ call => exact absurd rfl (hcalls _ call)
  | @replied ticket' request response' awaits' reply' =>
      obtain rfl : ticket' = ticket := Option.some.inj (awaits'.symm.trans awaits)
      obtain rfl : response' = response := Option.some.inj (reply'.symm.trans reply)
      refine ⟨dealt ++ [some request], none, results ++ [(request, response')], ?_, ?_, ?_⟩
      · rw [change_attendant_self, List.map_append, List.append_assoc]
        exact hevents
      · rw [change_attendant_self]
        exact hanswered.applied request response'
      · exact .free (by rw [change_attendant_self])

/-- What a manager applies for a connection when it deals with something. -/
theorem Kept.applied_deal (h : Kept manager exchange) (n : Nat) (dealing : Dealing) :
    manager.applied n (exchange.deal dealing).history =
      manager.applied n exchange.history ++ dealing.results n exchange.manager := by
  rw [h.manager_eq]
  exact Manager.applied_snoc n manager exchange.history dealing

theorem Kept.manager_deal (h : Kept manager exchange) (dealing : Dealing) :
    (exchange.deal dealing).manager =
      (manager.handleEach ((exchange.deal dealing).history.map Dealing.step)).manager := by
  show (Manager.take dealing.step exchange.manager).manager =
    (manager.handleEach ((exchange.history ++ [dealing]).map Dealing.step)).manager
  rw [List.map_append, h.manager_eq]
  exact (Manager.handleEach_snoc_manager ..).symm

/-- The manager deals with something that is no request. -/
theorem Kept.deals (h : Kept manager exchange) (step : Manager.Step)
    (other : ∀ request, step.2 ≠ .control request) :
    Kept manager (exchange.deal { step, origin := none }) := by
  have hresults : ∀ n, Dealing.results n exchange.manager { step, origin := none } = [] := by
    intro n
    rw [Dealing.results]
    split
    · next request hrequest => exact absurd hrequest (other request)
    · rfl
  refine ⟨h.manager_deal _, fun dealing hmem request hrequest => ?_, ?_, h.sound, fun n => ?_⟩
  · rcases List.mem_append.mp hmem with hmem | hmem
    · exact h.origin dealing hmem request hrequest
    · rw [List.mem_singleton.mp hmem] at hrequest
      exact absurd hrequest (other request)
  · exact ⟨h.tickets.issued, h.tickets.own, h.tickets.called, h.tickets.once, h.tickets.unused⟩
  · obtain ⟨dealt, pending, results, hdealt⟩ := h.standing n
    rw [h.applied_deal, hresults, List.append_nil]
    exact ⟨dealt, pending, results, hdealt.stays rfl (fun _ hcall _ => hcall) fun _ _ _ => rfl⟩

/-- The manager applies the first request in its queue. -/
theorem Kept.applies (h : Kept manager exchange) {call : Call} {calls : List Call}
    {response : ControlResponse} (w : Surroundings) (first : exchange.calls = call :: calls)
    (answer : (Manager.take (dealing w call).step exchange.manager).answers = [response]) :
    Kept manager ((exchange.deal (dealing w call)).reply calls call.ticket response) := by
  have hmem : call ∈ exchange.calls := by rw [first]; exact List.mem_cons_self
  obtain ⟨hawaits, hnone⟩ := h.tickets.called hmem
  have hresults : ∀ n, Dealing.results n exchange.manager (dealing w call) =
      if call.origin = n then [(call.request, response)] else [] := by
    intro n
    show (if some call.origin = some n then
      (Manager.take (dealing w call).step exchange.manager).answers.map _ else []) = _
    simp only [Option.some.injEq, answer, List.map_cons, List.map_nil]
  refine ⟨h.manager_deal _, fun dealing hdealing request hrequest => ?_,
    h.tickets.applies first _ response, h.sound, fun n => ?_⟩
  · rcases List.mem_append.mp hdealing with hdealing | hdealing
    · exact h.origin dealing hdealing request hrequest
    · exact ⟨call.origin, by rw [List.mem_singleton.mp hdealing]; rfl⟩
  · show ∃ dealt pending results, Standing _ n
      (manager.applied n (exchange.deal (dealing w call)).history) dealt pending results
    rw [h.applied_deal, hresults]
    obtain ⟨dealt, pending, results, hdealt⟩ := h.standing n
    by_cases hn : call.origin = n
    · subst hn
      rw [if_pos rfl]
      refine ⟨dealt, pending, results, hdealt.events, hdealt.answered, ?_⟩
      have hpending := hdealt.pending
      generalize manager.applied call.origin exchange.history = applied at hpending ⊢
      cases hpending with
      | free hfree =>
          rw [hfree] at hawaits
          cases hawaits
      | @called ticket request awaits hcall =>
          -- there is one request under a ticket
          have hticket : ticket = call.ticket := Option.some.inj (awaits.symm.trans hawaits)
          have hrequest : request = call.request :=
            congrArg Call.request (List.inj_on_of_nodup_map h.tickets.once hcall hmem hticket)
          rw [← hrequest]
          exact .replied hawaits (Function.update_self ..)
      | @replied ticket request response' awaits reply =>
          obtain rfl : ticket = call.ticket := Option.some.inj (awaits.symm.trans hawaits)
          rw [reply] at hnone
          cases hnone
    · rw [if_neg hn, List.append_nil]
      refine ⟨dealt, pending, results, hdealt.stays rfl (fun other hother horigin => ?_)
        fun ticket hticket hreply => ?_⟩
      · rw [first] at hother
        exact (List.mem_cons.mp hother).resolve_left fun heq => hn (heq ▸ horigin)
      · have hne : ticket ≠ call.ticket := fun heq =>
          hn (h.tickets.own hawaits (heq ▸ hticket))
        exact Function.update_of_ne hne ..

theorem Kept.serves (h : Kept manager exchange) (m : Serves exchange next) :
    Kept manager next := by
  cases m with
  | refuses text free first => exact h.refuses text free first
  | closes free first => exact h.closes free first
  | asks free first => exact h.asks free first
  | applies w _ first answer => exact h.applies w first answer
  | answers _ awaits reply => exact h.answers awaits reply

theorem Kept.goes (h : Kept manager exchange) (m : Goes exchange next) : Kept manager next := by
  cases m with
  | serves m => exact h.serves m
  | deals step _ other => exact h.deals step other

/-- **Whatever happens, the requests are kept track of.** -/
theorem Kept.moves (h : Kept manager exchange) (m : Moves exchange next) : Kept manager next := by
  cases m with
  | goes m => exact h.goes m
  | @hears n bytes more =>
      obtain ⟨new, hheard⟩ := Attendant.heard_hear (h.sound n) more bytes
      exact h.hears hheard
  | @hearsEnd n more =>
      obtain ⟨new, hheard⟩ := Attendant.heard_hearEnd (h.sound n) more
      exact h.hears hheard
  | leaves n =>
      have hheard : Attendant.Heard (exchange.attendant n)
          { exchange.attendant n with gone := true } [] :=
        ⟨(List.append_nil _).symm, (List.append_nil _).symm, rfl, rfl, rfl, (h.sound n).reader⟩
      exact h.hears hheard
  | stops =>
      exact ⟨h.manager_eq, h.origin,
        ⟨h.tickets.issued, h.tickets.own, h.tickets.called, h.tickets.once, h.tickets.unused⟩,
        h.sound, fun n => by
          obtain ⟨dealt, pending, results, hdealt⟩ := h.standing n
          exact ⟨dealt, pending, results,
            hdealt.stays rfl (fun _ hcall _ => hcall) fun _ _ _ => rfl⟩⟩

theorem kept_of_reachable (h : Reachable manager exchange) : Kept manager exchange := by
  induction h with
  | start => exact kept_start manager
  | move _ m ih => exact ih.moves m

/-! ## What that says of the answers -/

/-- Lines that were dealt with are the first ones, and the rest is ahead. -/
theorem lines_of_events {lines dealt : List (Option ControlRequest)}
    {last ahead : List ControlEvent} (hlast : ∀ event ∈ last, event = .closed)
    (h : lines.map ofRequest? ++ last = dealt.map ofRequest? ++ ahead) :
    ∃ left, lines = dealt ++ left ∧ left.map ofRequest? ++ last = ahead := by
  induction dealt generalizing lines with
  | nil => exact ⟨lines, rfl, h⟩
  | cons line dealt ih =>
      cases lines with
      | nil =>
          have hclosed := hlast (ofRequest? line) (by
            rw [show last = _ from h]
            exact List.mem_cons_self)
          cases line <;> cases hclosed
      | cons first lines =>
          obtain ⟨heq, h⟩ := List.cons.inj h
          obtain ⟨left, rfl, hleft⟩ := ih h
          have hfirst : first = line := by
            cases first <;> cases line <;> cases heq <;> rfl
          exact ⟨left, by rw [hfirst, List.cons_append], hleft⟩

/-- The lines of a connection that were dealt with, and what is ahead of them. -/
theorem Standing.lines (h : Standing exchange n applied dealt pending results) :
    ∃ left, (exchange.attendant n).lines = dealt ++ left ∧
      (left.map ofRequest? ++ if (exchange.attendant n).over then [.closed] else []) =
        pending.toList.map .request ++ (exchange.attendant n).ahead := by
  refine lines_of_events (fun event hevent => ?_) ((Attendant.events_eq _).symm.trans h.events)
  split at hevent
  · exact List.mem_singleton.mp hevent
  · exact absurd hevent List.not_mem_nil

theorem Kept.answered (h : Kept manager exchange) (n : Nat) :
    ∃ dealt left results, (exchange.attendant n).lines = dealt ++ left ∧
      Answered dealt results (exchange.attendant n).written ∧
      (manager.applied n exchange.history = results ∨ ∃ request response,
        left.head? = some (some request) ∧
        manager.applied n exchange.history = results ++ [(request, response)]) := by
  obtain ⟨dealt, pending, results, hdealt⟩ := h.standing n
  obtain ⟨left, hlines, hleft⟩ := hdealt.lines
  refine ⟨dealt, left, results, hlines, hdealt.answered, ?_⟩
  have hpending := hdealt.pending
  generalize manager.applied n exchange.history = applied at hpending ⊢
  cases hpending with
  | free | called => exact .inl rfl
  | @replied _ request response =>
      refine .inr ⟨request, response, ?_, rfl⟩
      cases left with
      | nil =>
          exfalso
          revert hleft
          cases (exchange.attendant n).over <;> intro hleft <;> cases hleft
      | cons line left =>
          obtain ⟨heq, _⟩ := List.cons.inj hleft
          cases line <;> cases heq
          rfl

theorem Kept.settled (h : Kept manager exchange) (hquiet : (exchange.attendant n).Quiet) :
    Answered (exchange.attendant n).lines (manager.applied n exchange.history)
      (exchange.attendant n).written ∧
    (exchange.attendant n).closed = (exchange.attendant n).over := by
  obtain ⟨hawaits, hdone⟩ := hquiet
  obtain ⟨dealt, pending, results, hdealt⟩ := h.standing n
  obtain ⟨rfl, rfl⟩ := hdealt.pending.of_free hawaits
  obtain ⟨left, hlines, hleft⟩ := hdealt.lines
  have hsound := (h.sound n).closed
  suffices hend : left = [] ∧ (exchange.attendant n).closed = (exchange.attendant n).over by
    obtain ⟨rfl, hclosed⟩ := hend
    rw [hlines, List.append_nil]
    exact ⟨hdealt.answered, hclosed⟩
  change left.map ofRequest? ++ _ = (exchange.attendant n).ahead at hleft
  rcases hdone with hclosed | hahead
  · obtain ⟨rest, hrest⟩ := List.head?_eq_some_iff.mp (hsound hclosed)
    rw [hrest] at hleft
    cases left with
    | nil =>
        refine ⟨rfl, hclosed.trans ?_⟩
        cases hover : (exchange.attendant n).over with
        | true => rfl
        | false =>
            rw [hover] at hleft
            cases hleft
    | cons line left => cases line <;> cases (List.cons.inj hleft).1
  · rw [hahead, List.append_eq_nil_iff, List.map_eq_nil_iff] at hleft
    refine ⟨hleft.1, ?_⟩
    have hopen : (exchange.attendant n).closed = false := by
      cases hclosed : (exchange.attendant n).closed with
      | false => rfl
      | true =>
          have hhead := hsound hclosed
          rw [hahead] at hhead
          cases hhead
    cases hover : (exchange.attendant n).over with
    | false => exact hopen
    | true =>
        rw [hover] at hleft
        cases hleft.2

/-! ## Nothing gets stuck -/

/-- While the loop runs the manager can apply all requests in its queue. -/
theorem Kept.exists_drained (h : Kept manager exchange) (hloop : exchange.looping = true) :
    ∃ later, Relation.ReflTransGen Serves exchange later ∧ Kept manager later ∧
      later.calls = [] ∧ later.looping = true ∧ later.attendant = exchange.attendant := by
  generalize hcalls : exchange.calls = calls
  induction calls generalizing exchange with
  | nil => exact ⟨exchange, .refl, h, hcalls, hloop, rfl⟩
  | cons call calls ih =>
      obtain ⟨response, hresponse⟩ := Manager.exists_answer call.request exchange.manager
      have hserves : Serves exchange
          ((exchange.deal (dealing Session.still call)).reply calls call.ticket response) :=
        .applies _ hloop hcalls hresponse
      obtain ⟨later, hlater, hkept, hdrained, hstill, hattendant⟩ := ih (h.serves hserves) hloop rfl
      exact ⟨later, .head hserves hlater, hkept, hdrained, hstill, hattendant⟩

/-- An attendant whose other side is there can finish what it is at. -/
theorem Kept.exists_free (h : Kept manager exchange) (hloop : exchange.looping = true)
    (hthere : (exchange.attendant n).gone = false) :
    ∃ later written, Relation.ReflTransGen Serves exchange later ∧ Kept manager later ∧
      later.looping = true ∧
      later.attendant n = { exchange.attendant n with awaits := none, written } := by
  obtain ⟨drained, hdrained, hkept, hcalls, hstill, hattendant⟩ := h.exists_drained hloop
  obtain ⟨dealt, pending, results, hdealt⟩ := hkept.standing n
  have hpending := hdealt.pending
  generalize manager.applied n drained.history = applied at hpending
  cases hpending with
  | free awaits =>
      rw [hattendant] at awaits
      refine ⟨drained, (exchange.attendant n).written, hdrained, hkept, hstill, ?_⟩
      rw [hattendant, ← awaits]
  | called _ call =>
      rw [hcalls] at call
      exact absurd call List.not_mem_nil
  | @replied ticket request response awaits reply =>
      have hserves := Serves.answers (by rw [hattendant]; exact hthere) awaits reply
      refine ⟨_, (exchange.attendant n).written ++ [response], .tail hdrained hserves,
        hkept.serves hserves, hstill, ?_⟩
      rw [change_attendant_self, hattendant]

/-- **While the loop runs, everything can be answered.** -/
theorem Kept.settles (h : Kept manager exchange) (hloop : exchange.looping = true)
    (hthere : (exchange.attendant n).gone = false) :
    ∃ later, Relation.ReflTransGen Serves exchange later ∧ (later.attendant n).Quiet ∧
      (later.attendant n).lines = (exchange.attendant n).lines := by
  generalize hahead : (exchange.attendant n).ahead = ahead
  induction ahead generalizing exchange with
  | nil =>
      obtain ⟨later, written, hlater, _, _, hattendant⟩ := h.exists_free hloop hthere
      refine ⟨later, hlater, ?_, ?_⟩
      · rw [hattendant]
        exact ⟨rfl, .inr hahead⟩
      · rw [hattendant]
        rfl
  | cons event ahead ih =>
      obtain ⟨free, written, hfree, hkept, hstill, hattendant⟩ := h.exists_free hloop hthere
      have hlines : (free.attendant n).lines = (exchange.attendant n).lines := by
        rw [hattendant]
        rfl
      have hnext : (free.attendant n).ahead = event :: ahead := by
        rw [hattendant]
        exact hahead
      have hawaits : (free.attendant n).awaits = none := by rw [hattendant]
      have hgone : (free.attendant n).gone = false := by
        rw [hattendant]
        exact hthere
      -- one more line is dealt with, and the rest by induction
      have hgo : ∀ {next : Exchange}, Serves free next → next.looping = true →
          (next.attendant n).gone = false → (next.attendant n).ahead = ahead →
          (next.attendant n).lines = (free.attendant n).lines →
          ∃ later, Relation.ReflTransGen Serves exchange later ∧ (later.attendant n).Quiet ∧
            (later.attendant n).lines = (exchange.attendant n).lines := by
        intro next hserves hloop hthere hahead hsame
        obtain ⟨later, hlater, hquiet, hdone⟩ := ih (hkept.serves hserves) hloop hthere hahead
        exact ⟨later, hfree.trans (.head hserves hlater), hquiet, by rw [hdone, hsame, hlines]⟩
      cases hclosed : (free.attendant n).closed with
      | true => exact ⟨free, hfree, ⟨hawaits, .inl hclosed⟩, hlines⟩
      | false =>
          have hcan : (free.attendant n).Free := ⟨hclosed, hgone, hawaits⟩
          cases event with
          | request request =>
              refine hgo (.asks hcan hnext) hstill ?_ ?_ ?_ <;> rw [change_attendant_self]
              · exact hgone
              · rfl
          | misunderstood =>
              refine hgo (.refuses "" hcan hnext) hstill ?_ ?_ ?_ <;> rw [change_attendant_self]
              · exact hgone
              · rfl
          | closed =>
              have hserves := Serves.closes hcan hnext
              refine ⟨_, hfree.tail hserves, ?_, ?_⟩ <;> rw [change_attendant_self]
              · exact ⟨hawaits, .inl rfl⟩
              · exact hlines

/-- **Control requests are served in every interleaving.** -/
theorem served_of_reachable (h : Reachable manager exchange) : Served manager exchange := by
  have hkept := kept_of_reachable h
  exact ⟨hkept.manager_eq, hkept.origin, fun n => ⟨hkept.answered n, hkept.settled, hkept.settles⟩⟩

end Exchange

end Xsmp
