import Xsmp.Proofs.Control.Answers

/-!
# Control connections of a running service

A service does at once what the attendants and the manager do in many moves: it reads what has
arrived, applies each request and writes its answer before it looks at the next line. It stands
where they stand after these moves, until its manager runs no more.
-/

namespace Xsmp

namespace ServiceTurn

theorem answers_andThen (turn : ServiceTurn) (next : Service → ServiceTurn) (n : Nat) :
    (turn.andThen next).answers n = turn.answers n ++ (next turn.service).answers n :=
  List.filterMap_append

end ServiceTurn

namespace Exchange

variable {exchange : Exchange} {n : Nat} {request : ControlRequest} {rest : List ControlEvent}
  {response : ControlResponse}

/-- The only request in the queue is applied, and its answer is written. -/
theorem exists_replied {call : Call} (w : Surroundings) (looping : exchange.looping = true)
    (calls : exchange.calls = [call])
    (there : (exchange.attendant call.origin).gone = false)
    (awaits : (exchange.attendant call.origin).awaits = some call.ticket)
    (answer : (Manager.take (dealing w call).step exchange.manager).answers = [response]) :
    ∃ later, Relation.ReflTransGen Serves exchange later ∧
      later.manager = (Manager.take (dealing w call).step exchange.manager).manager ∧
      later.looping = true ∧ later.calls = [] ∧
      later.attendant = Function.update exchange.attendant call.origin {
        exchange.attendant call.origin with
        awaits := none
        written := (exchange.attendant call.origin).written ++ [response] } := by
  have happlies := Serves.applies w looping calls answer
  obtain ⟨applied, happlied⟩ :
    ∃ applied, applied = (exchange.deal (dealing w call)).reply [] call.ticket response := ⟨_, rfl⟩
  rw [← happlied] at happlies
  have hattendant : applied.attendant = exchange.attendant := by rw [happlied]; rfl
  have hreply : applied.replies call.ticket = some response := by
    rw [happlied]
    exact Function.update_self ..
  rw [← hattendant] at there awaits ⊢
  refine ⟨_, .tail (.single happlies) (.answers there awaits hreply), ?_, ?_, ?_, rfl⟩
  · rw [happlied]
    rfl
  · rw [happlied]
    exact looping
  · rw [happlied]
    rfl

/-- With nothing else in the queue a request can be answered at once. -/
theorem exists_served (w : Surroundings) (free : (exchange.attendant n).Free)
    (next : (exchange.attendant n).ahead = .request request :: rest)
    (looping : exchange.looping = true) (calls : exchange.calls = [])
    (answer : (Manager.take (w, .control request) exchange.manager).answers = [response]) :
    ∃ later, Relation.ReflTransGen Serves exchange later ∧
      later.manager = (Manager.take (w, .control request) exchange.manager).manager ∧
      later.looping = true ∧ later.calls = [] ∧
      later.attendant = Function.update exchange.attendant n { exchange.attendant n with
        ahead := rest
        written := (exchange.attendant n).written ++ [response] } := by
  have hasks := Serves.asks free next
  obtain ⟨asked, hasked⟩ : ∃ asked, asked = (exchange.call n request).change n {
      exchange.attendant n with
      ahead := rest
      awaits := some exchange.ticket } := ⟨_, rfl⟩
  rw [← hasked] at hasks
  have hattendant : asked.attendant = Function.update exchange.attendant n {
      exchange.attendant n with
      ahead := rest
      awaits := some exchange.ticket } := by rw [hasked]; rfl
  have hself := congrFun hattendant n
  rw [Function.update_self] at hself
  have hcalls : asked.calls = [{ ticket := exchange.ticket, request, origin := n }] := by
    rw [hasked]
    exact congrArg (· ++ _) calls
  have hmanager : asked.manager = exchange.manager := by rw [hasked]; rfl
  obtain ⟨later, hlater, hdone, hloop, hnone, hlast⟩ := exists_replied w
    (by rw [hasked]; exact looping) hcalls (by rw [hself]; exact free.2.1) (by rw [hself])
    (by rw [hmanager]; exact answer)
  refine ⟨later, .head hasks hlater, by rw [hdone, hmanager]; rfl, hloop, hnone, ?_⟩
  rw [hlast, hself, hattendant, Function.update_idem]
  simp only [free.2.2]

end Exchange

namespace Service

variable {service : Service} {manager : Manager} {event : ManagerEvent} {n number : Nat}
  {control : Option Nat}

/-! ## What the manager's turn changes -/

/-- The session of a service has ended. -/
def Stopped (service : Service) : Prop :=
  (∃ manager lock wake, service.stage = .finishing manager lock wake) ∨
    ∃ failure, service.stage = .ended failure

theorem Stopped.not_running (h : Stopped service) (manager : Manager) :
    service.stage ≠ .running manager := by
  intro hstage
  rcases h with ⟨_, _, _, h⟩ | ⟨_, h⟩ <;> rw [hstage] at h <;> cases h

/-- The control connections are left alone. -/
structure SameControls (service next : Service) : Prop where
  controls : next.controls = service.controls
  lastControl : next.lastControl = service.lastControl

/-- What others see of what the manager has done. Its answers go to the connection that the
request came on. -/
structure Exposes (control : Option Nat) (actions : List ManagerAction) (service : Service)
    (turn : ServiceTurn) : Prop where
  stage : turn.service.stage = service.stage
  controls : SameControls service turn.service
  answers : ∀ n, turn.answers n =
    if control = some n then actions.filterMap ManagerAction.answer? else []

/-- Nothing that was started is an answer. -/
theorem answers_started (service : Service) (started : Option ServiceAction)
    (h : ∀ action ∈ started, ∃ command watched, action = .started command watched) (n : Nat) :
    ServiceTurn.answers { service, actions := started.toList } n = [] := by
  refine List.filterMap_eq_nil_iff.mpr fun action haction => ?_
  obtain ⟨command, watched, rfl⟩ := h action (Option.mem_toList.mp haction)
  rfl

theorem exposes_expose (control : Option Nat) (manager : Manager) (action : ManagerAction)
    (service : Service) :
    Exposes control [action] service (expose control manager action service) := by
  cases action with
  | answered response =>
      refine ⟨rfl, ⟨rfl, rfl⟩, fun n => ?_⟩
      cases control with
      | none => rfl
      | some number =>
          by_cases h : number = n
          · simp [expose, ServiceTurn.answers, ManagerAction.answer?, h]
          · simp [expose, ServiceTurn.answers, h]
  | sent | closed => exact ⟨rfl, ⟨rfl, rfl⟩, fun _ => (ite_self _).symm⟩
  | launched position clientId pid =>
      refine ⟨rfl, ⟨rfl, rfl⟩, fun n => (answers_started _ _ ?_ n).trans (ite_self _).symm⟩
      intro action haction
      simp only [bind, pure, Option.mem_def, Option.bind_eq_some_iff, Option.some.injEq] at haction
      obtain ⟨program, _, pid, _, command, _, rfl⟩ := haction
      exact ⟨_, _, rfl⟩
  | restarted participant =>
      refine ⟨rfl, ⟨rfl, rfl⟩, fun n => ?_⟩
      rw [expose, ← Option.toList_map]
      refine (answers_started _ _ ?_ n).trans (ite_self _).symm
      intro action haction
      obtain ⟨command, _, rfl⟩ := Option.map_eq_some_iff.mp haction
      exact ⟨_, _, rfl⟩

theorem exposes_exposeAll (control : Option Nat) (manager : Manager)
    (actions : List ManagerAction) (service : Service) :
    Exposes control actions service (exposeAll control manager actions service) := by
  induction actions generalizing service with
  | nil => exact ⟨rfl, ⟨rfl, rfl⟩, fun _ => (ite_self _).symm⟩
  | cons action actions ih =>
      have hfirst := exposes_expose control manager action service
      have hrest := ih (expose control manager action service).service
      refine ⟨hrest.stage.trans hfirst.stage,
        ⟨hrest.controls.controls.trans hfirst.controls.controls,
          hrest.controls.lastControl.trans hfirst.controls.lastControl⟩, fun n => ?_⟩
      rw [exposeAll, ServiceTurn.answers_andThen, hfirst.answers, hrest.answers]
      split
      · exact (List.filterMap_append ..).symm
      · rfl

/-! ## The end of the session -/

theorem stopped_windUp (manager : Manager) (service : Service) :
    Stopped (windUp service manager).service :=
  .inr ⟨none, rfl⟩

theorem stopped_finish (manager : Manager) (lock : LockStage) (service : Service) :
    Stopped (finish service manager lock).service := by
  rw [finish]
  dsimp only
  split
  · exact .inl ⟨_, _, _, rfl⟩
  · exact stopped_windUp _ _
  · exact stopped_windUp _ _

/-- The manager of a service deals with an event, and the service goes on unless the session has
ended. -/
theorem handle_spec (control : Option Nat) (event : ManagerEvent)
    (hstage : service.stage = .running manager) (hawake : manager.completed = false) :
    Stopped (handle control event service).service ∨
    ((Manager.take (service.surroundings, event) manager).manager.completed = false ∧
      (handle control event service).service.stage =
        .running (Manager.take (service.surroundings, event) manager).manager ∧
      SameControls service (handle control event service).service ∧
      ∀ n, (handle control event service).answers n =
        if control = some n then (Manager.take (service.surroundings, event) manager).answers
        else []) := by
  have hstep : manager.step service.surroundings event =
      Manager.take (service.surroundings, event) manager := by
    rw [Manager.step, if_neg (by rw [hawake]; exact Bool.false_ne_true)]
  generalize hturn : Manager.take (service.surroundings, event) manager = turn at hstep
  have hexposes := exposes_exposeAll control turn.manager turn.actions
    { service with stage := .running turn.manager }
  rw [handle, hstage]
  dsimp only
  rw [hstep, adopt]
  rw [ServiceTurn.andThen]
  cases hcompleted : turn.manager.completed with
  | true => exact .inl (stopped_finish turn.manager (.checking .created) _)
  | false =>
      refine .inr ⟨rfl, hexposes.stage, ⟨hexposes.controls.controls, hexposes.controls.lastControl⟩,
        fun n => ?_⟩
      refine Eq.trans ?_ (hexposes.answers n)
      exact congrArg (List.filterMap _) (List.append_nil _)

/-! ## Once the session has ended -/

theorem handle_of_stopped (h : Stopped service) :
    handle control event service = { service } := by
  rw [handle]
  split
  · next hstage => exact absurd hstage (h.not_running _)
  · rfl

theorem handleControl_closed (number : Nat) (rest : List ControlEvent) (service : Service) :
    handleControl number (.closed :: rest) service =
      { service := { service with controls := service.controls.erase number }
        actions := [.dropped number] } := rfl

theorem handleControl_request (number : Nat) (request : ControlRequest)
    (rest : List ControlEvent) (hstage : service.stage = .running manager) :
    handleControl number (.request request :: rest) service =
      (handle (some number) (.control request) service).andThen (handleControl number rest) := by
  rw [handleControl, hstage]

theorem stopped_handleControl (number : Nat) (events : List ControlEvent) (h : Stopped service) :
    Stopped (handleControl number events service).service := by
  induction events generalizing service with
  | nil => exact h
  | cons event events ih =>
      cases event with
      | misunderstood => exact ih h
      | closed => exact h
      | request request =>
          unfold handleControl
          dsimp only
          split
          · next hstage => exact absurd hstage (h.not_running _)
          · exact h
          · exact h

/-! ## Following what a service does -/

/-- A control connection that a service reads from, with what it has not dealt with. -/
structure Attends (attendant : Attendant) (reader : LineReader) (left : List ControlEvent) :
    Prop where
  free : attendant.Free
  ahead : attendant.ahead = left
  /-- Unless it is about to be closed, it is read on. -/
  reads : ControlEvent.closed ∉ left →
    attendant.finished = false ∧ attendant.reader = some reader

/-- A service stands where the manager and the attendants stand. Of one connection it may not
have dealt with everything yet. -/
structure Follows (number : Nat) (left : List ControlEvent) (service : Service)
    (exchange : Exchange) : Prop where
  stage : service.stage = .running exchange.manager
  awake : exchange.manager.completed = false
  looping : exchange.looping = true
  calls : exchange.calls = []
  attends : ∀ {n connection}, service.controls.get? n = some connection →
    connection.held = [] ∧
      Attends (exchange.attendant n) connection.reader (if n = number then left else [])
  quiet : ∀ {n}, service.controls.get? n = none → (exchange.attendant n).Quiet
  unopened : ∀ {n}, service.lastControl < n →
    service.controls.get? n = none ∧ exchange.attendant n = {}

variable {exchange next : Exchange} {left : List ControlEvent} {turn : ServiceTurn}
  {f g : Service → ServiceTurn}

open Exchange (Goes Serves)

/-- What a service has done, unless it has stopped, the manager and the attendants may do, with
the same answers. -/
def Matches (exchange : Exchange) (turn : ServiceTurn) : Prop :=
  Stopped turn.service ∨ ∃ later, Relation.ReflTransGen Goes exchange later ∧
    Follows 0 [] turn.service later ∧
    ∀ n, (later.attendant n).written = (exchange.attendant n).written ++ turn.answers n

theorem Follows.idle (h : Follows number [] service exchange) (other : Nat) :
    Follows other [] service exchange := by
  refine ⟨h.stage, h.awake, h.looping, h.calls, fun {n connection} hconnection => ?_, h.quiet,
    h.unopened⟩
  obtain ⟨hheld, hattends⟩ := h.attends hconnection
  rw [ite_self] at hattends ⊢
  exact ⟨hheld, hattends⟩

theorem Follows.matches (h : Follows number [] service exchange) : Matches exchange { service } :=
  .inr ⟨exchange, .refl, h.idle 0, fun _ => (List.append_nil _).symm⟩

theorem Matches.andThen {next : Service → ServiceTurn} {middle : Exchange}
    (hfirst : Relation.ReflTransGen Goes exchange middle)
    (hwritten : ∀ n, (middle.attendant n).written =
      (exchange.attendant n).written ++ turn.answers n)
    (h : Matches middle (next turn.service)) : Matches exchange (turn.andThen next) := by
  rcases h with hstopped | ⟨later, hlater, hfollows, hanswers⟩
  · exact .inl hstopped
  · refine .inr ⟨later, hfirst.trans hlater, hfollows, fun n => ?_⟩
    rw [hanswers, hwritten, ServiceTurn.answers_andThen, List.append_assoc]

/-- The control connections of a service and their attendants are as before. -/
theorem Follows.transport (h : Follows number left service exchange) {other : Service}
    {later : Exchange} (hsame : SameControls service other)
    (hattendant : later.attendant = exchange.attendant)
    (hstage : other.stage = .running later.manager) (hawake : later.manager.completed = false)
    (hlooping : later.looping = true) (hcalls : later.calls = []) :
    Follows number left other later := by
  refine ⟨hstage, hawake, hlooping, hcalls, ?_, ?_, ?_⟩
  · rw [hsame.controls, hattendant]
    exact h.attends
  · rw [hsame.controls, hattendant]
    exact h.quiet
  · rw [hsame.controls, hsame.lastControl, hattendant]
    exact h.unopened

/-- Something that a service does, and does not do once its manager does not run. -/
structure Orderly (f : Service → ServiceTurn) : Prop where
  stopped : ∀ {service}, Stopped service → Stopped (f service).service
  follows : ∀ {service exchange}, Follows 0 [] service exchange → Matches exchange (f service)

theorem Matches.goesOn (h : Matches exchange turn) (hg : Orderly g) :
    Matches exchange (turn.andThen g) := by
  rcases h with hstopped | ⟨later, hlater, hfollows, hanswers⟩
  · exact .inl (hg.stopped hstopped)
  · exact .andThen hlater hanswers (hg.follows hfollows)

theorem Orderly.andThen (hf : Orderly f) (hg : Orderly g) :
    Orderly fun service => (f service).andThen g where
  stopped h := hg.stopped (hf.stopped h)
  follows h := (hf.follows h).goesOn hg

theorem orderly_nothing : Orderly fun service => { service } where
  stopped h := h
  follows h := h.matches

theorem Orderly.ite (condition : Service → Bool) (hf : Orderly f) (hg : Orderly g) :
    Orderly fun service => if condition service then f service else g service where
  stopped {service} h := by
    split
    · exact hf.stopped h
    · exact hg.stopped h
  follows {service exchange} h := by
    split
    · exact hf.follows h
    · exact hg.follows h

/-- Nothing changes that the control connections or the manager depend on. -/
theorem Orderly.after {change : Service → Service} (hf : Orderly f)
    (hstage : ∀ service, (change service).stage = service.stage)
    (hsame : ∀ service, SameControls service (change service)) :
    Orderly fun service => f (change service) where
  stopped {service} h := hf.stopped (by rwa [Stopped, hstage])
  follows {service exchange} h := hf.follows
    (h.transport (hsame service) rfl ((hstage service).trans h.stage) h.awake h.looping h.calls)

/-- The manager deals with an event that is no request. -/
theorem orderly_handle (other : ∀ request, event ≠ .control request) :
    Orderly (handle none event) where
  stopped h := by rw [handle_of_stopped h]; exact h
  follows {service exchange} h := by
    rcases handle_spec none event h.stage h.awake with hstopped | ⟨hawake, hstage, hsame, hanswers⟩
    · exact .inl hstopped
    · refine .inr ⟨_, .single (.deals (service.surroundings, event) h.looping other), ?_,
        fun n => ?_⟩
      · exact ⟨hstage, hawake, h.looping, h.calls, hsame.controls ▸ h.attends,
          hsame.controls ▸ h.quiet, by rw [hsame.controls, hsame.lastControl]; exact h.unopened⟩
      · rw [hanswers, if_neg (Option.some_ne_none n).symm, List.append_nil]
        rfl

theorem orderly_handleClient (key : ClientKey) (events : List ConnectionEvent) :
    Orderly (handleClient key events) := by
  induction events with
  | nil => exact orderly_nothing
  | cons event events ih =>
      refine Orderly.andThen (orderly_handle fun request => ?_) ih
      cases event <;> exact ManagerEvent.noConfusion

theorem orderly_timePhases (left : Nat) : Orderly (timePhases left) := by
  induction left with
  | zero => exact orderly_nothing
  | succ left ih =>
      exact .ite phaseDue ((orderly_handle fun _ => ManagerEvent.noConfusion).andThen ih)
        orderly_nothing

/-- What is due while the manager runs. -/
theorem orderly_settle : Orderly settle :=
  (orderly_timePhases _).andThen
    (.ite handshakeDue (orderly_handle fun _ => ManagerEvent.noConfusion) orderly_nothing)

/-! ## Control connections -/

/-- An open connection has been dealt with up to some point, or is closed, or more was read on
it. The others stay. -/
theorem Follows.replace (h : Follows number left service exchange) {attendant : Attendant}
    {connection : ControlConnection} {controls : KeyMap ControlConnection}
    {rest : List ControlEvent} (hopen : service.controls.get? number = some connection)
    (hother : ∀ n ≠ number, controls.get? n = service.controls.get? n)
    (hattends : ∀ connection, controls.get? number = some connection →
      connection.held = [] ∧ Attends attendant connection.reader rest)
    (hquiet : controls.get? number = none → attendant.Quiet) :
    Follows number rest { service with controls } (exchange.change number attendant) := by
  refine ⟨h.stage, h.awake, h.looping, h.calls, fun {n other} hget => ?_, fun {n} hnone => ?_,
    fun {n} hn => ?_⟩
  · by_cases hn : n = number
    · rw [if_pos hn, hn, Exchange.change_attendant_self]
      exact hattends other (hn ▸ hget)
    · have hrest := h.attends ((hother n hn).symm.trans hget)
      rw [if_neg hn] at hrest ⊢
      rw [Exchange.change_attendant_of_ne hn]
      exact hrest
  · by_cases hn : n = number
    · rw [hn, Exchange.change_attendant_self]
      exact hquiet (hn ▸ hnone)
    · rw [Exchange.change_attendant_of_ne hn]
      exact h.quiet ((hother n hn).symm.trans hnone)
  · obtain ⟨hnone, hnew⟩ := h.unopened hn
    have hne : n ≠ number := fun heq => by rw [heq, hopen] at hnone; cases hnone
    rw [Exchange.change_attendant_of_ne hne]
    exact ⟨(hother n hne).trans hnone, hnew⟩

theorem Follows.change (h : Follows number left service exchange) {attendant : Attendant}
    {connection : ControlConnection} {rest : List ControlEvent}
    (hopen : service.controls.get? number = some connection)
    (hattends : Attends attendant connection.reader rest) :
    Follows number rest service (exchange.change number attendant) := by
  refine h.replace hopen (fun _ _ => rfl) (fun other hother => ?_) fun hnone => ?_
  · obtain rfl : other = connection := Option.some.inj (hother.symm.trans hopen)
    exact ⟨(h.attends hopen).1, hattends⟩
  · rw [hopen] at hnone
    cases hnone

theorem Follows.close (h : Follows number left service exchange) {attendant : Attendant}
    {connection : ControlConnection} (hopen : service.controls.get? number = some connection)
    (hquiet : attendant.Quiet) :
    Follows 0 [] { service with controls := service.controls.erase number }
      (exchange.change number attendant) := by
  have hclosed : Follows number [] { service with controls := service.controls.erase number }
      (exchange.change number attendant) := by
    refine h.replace hopen (fun _ hn => KeyMap.get?_erase_of_ne hn) (fun other hother => ?_)
      fun _ => hquiet
    rw [KeyMap.get?_erase_self] at hother
    cases hother
  exact hclosed.idle 0

theorem Follows.hears (h : Follows 0 [] service exchange) {attendant : Attendant}
    {reader : LineReader} {connection : ControlConnection}
    (hopen : service.controls.get? number = some connection)
    (hattends : Attends attendant reader left) :
    Follows number left { service with controls := service.controls.insert number { reader } }
      (exchange.change number attendant) := by
  refine (h.idle number).replace hopen (fun _ hn => KeyMap.get?_insert_of_ne hn)
    (fun other hother => ?_) fun hnone => ?_
  · rw [KeyMap.get?_insert_self] at hother
    cases hother
    exact ⟨rfl, hattends⟩
  · rw [KeyMap.get?_insert_self] at hnone
    cases hnone

theorem answers_answered (number : Nat) (response : ControlResponse) (service : Service) (n : Nat) :
    ServiceTurn.answers { service, actions := [.answered number response] } n =
      if number = n then [response] else [] := by
  by_cases h : number = n <;> simp [ServiceTurn.answers, h]

theorem follows_handleControl (number : Nat) (events : List ControlEvent)
    (h : Follows number events service exchange) {connection : ControlConnection}
    (hopen : service.controls.get? number = some connection) :
    Matches exchange (handleControl number events service) := by
  induction events generalizing service exchange connection with
  | nil => exact h.matches
  | cons event events ih =>
      have hattends := (h.attends hopen).2
      rw [if_pos rfl] at hattends
      have hrest : ∀ {attendant : Attendant}, attendant.Free → attendant.ahead = events →
          (ControlEvent.closed ∉ event :: events →
            attendant.finished = false ∧ attendant.reader = some connection.reader) →
          event ≠ .closed → Attends attendant connection.reader events :=
        fun hfree hahead hreads hevent => ⟨hfree, hahead, fun hmem => hreads fun hclosed =>
          (List.mem_cons.mp hclosed).elim (fun heq => hevent heq.symm) hmem⟩
      cases event with
      | misunderstood =>
          have hserves := Serves.refuses "malformed request" hattends.free hattends.ahead
          refine .andThen (.single (.serves hserves)) (fun n => ?_)
            (ih (h.change hopen (hrest hattends.free rfl hattends.reads ControlEvent.noConfusion))
              hopen)
          by_cases hn : n = number
          · rw [hn, Exchange.change_attendant_self, answers_answered, if_pos rfl]
            rfl
          · rw [Exchange.change_attendant_of_ne hn, answers_answered, if_neg (Ne.symm hn),
              List.append_nil]
      | closed =>
          have hserves := Serves.closes hattends.free hattends.ahead
          refine .inr ⟨_, .single (.serves hserves), h.close hopen ⟨hattends.free.2.2, .inl rfl⟩,
            fun n => ?_⟩
          rw [handleControl_closed]
          by_cases hn : n = number
          · rw [hn, Exchange.change_attendant_self]
            exact (List.append_nil _).symm
          · rw [Exchange.change_attendant_of_ne hn]
            exact (List.append_nil _).symm
      | request request =>
          rw [handleControl_request number request events h.stage]
          rcases handle_spec (some number) (.control request) h.stage h.awake with
            hstopped | ⟨hawake, hstage, hsame, hanswers⟩
          · exact .inl (stopped_handleControl number events hstopped)
          · obtain ⟨response, hresponse⟩ := Manager.exists_answer request exchange.manager
            obtain ⟨later, hlater, hmanager, hlooping, hcalls, hattendant⟩ :=
              Exchange.exists_served service.surroundings hattends.free hattends.ahead h.looping
                h.calls hresponse
            have hchanged : Follows number events service (exchange.change number {
                exchange.attendant number with
                ahead := events
                written := (exchange.attendant number).written ++ [response] }) :=
              h.change hopen (hrest hattends.free rfl hattends.reads ControlEvent.noConfusion)
            have hgoes : Relation.ReflTransGen Goes exchange later :=
              Relation.ReflTransGen.mono (fun _ _ m => Goes.serves m) _ _ hlater
            refine .andThen hgoes (fun n => ?_)
              (ih (hchanged.transport hsame hattendant (hmanager ▸ hstage) (hmanager ▸ hawake)
                hlooping hcalls) (hsame.controls ▸ hopen))
            rw [hattendant, hanswers]
            by_cases hn : n = number
            · rw [hn, Function.update_self, if_pos rfl]
              exact congrArg (_ ++ ·) hresponse.symm
            · rw [Function.update_of_ne hn, if_neg fun heq => hn (Option.some.inj heq).symm,
                List.append_nil]

/-- A control connection was opened. -/
theorem Follows.opens (h : Follows 0 [] service exchange) :
    Follows 0 [] { service with
      lastControl := service.lastControl + 1
      controls := service.controls.insert (service.lastControl + 1) {} } exchange := by
  have hnew := h.unopened (Nat.lt_succ_self service.lastControl)
  refine ⟨h.stage, h.awake, h.looping, h.calls, fun {n connection} hconnection => ?_,
    fun {n} hnone => ?_, fun {n} hn => ?_⟩
  · by_cases hn : n = service.lastControl + 1
    · subst hn
      rw [KeyMap.get?_insert_self] at hconnection
      cases hconnection
      rw [hnew.2, ite_self]
      exact ⟨rfl, ⟨⟨rfl, rfl, rfl⟩, rfl, fun _ => ⟨rfl, rfl⟩⟩⟩
    · rw [KeyMap.get?_insert_of_ne hn] at hconnection
      exact h.attends hconnection
  · by_cases hn : n = service.lastControl + 1
    · rw [hn, KeyMap.get?_insert_self] at hnone
      cases hnone
    · rw [KeyMap.get?_insert_of_ne hn] at hnone
      exact h.quiet hnone
  · have hlater : service.lastControl < n := Nat.lt_of_succ_lt hn
    rw [KeyMap.get?_insert_of_ne (Nat.ne_of_gt hn)]
    exact h.unopened hlater

end Service

end Xsmp
