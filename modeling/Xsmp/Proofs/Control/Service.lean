import Xsmp.Proofs.Connection.Framing
import Xsmp.Proofs.Control.Following

/-!
# A service answers control requests

While its manager runs, whatever happens to a service is one of the ways in which things may go
for a manager and its control connections, so what is known of all of them holds of the service.
-/

namespace Xsmp

namespace Service

variable {service : Service} {manager : Manager} {number : Nat} {exchange : Exchange}
  {left : List ControlEvent}

/-! ## Everything that happens to a service -/

/-- Something that happens to a service. -/
inductive Operation where
  | connect (socket : Path)
  | receive (client : ClientKey) (bytes : Bytes)
  | hangUp (client : ClientKey)
  | openControl (socket : Path)
  | receiveControl (control : Nat) (bytes : Bytes)
  | hangUpControl (control : Nat)
  | processExited (pid : Pid)
  | signal
  | advance (milliseconds : Nat)
  /-- Files or the wall clock change. -/
  | elsewhere (tree : FileTree) (clock : Timestamp)

namespace Operation

def perform : Operation → Service → ServiceTurn
  | .connect socket, service => (service.connect socket).2
  | .receive client bytes, service => service.receive client bytes
  | .hangUp client, service => service.hangUp client
  | .openControl socket, service => { service := (service.openControl socket).2 }
  | .receiveControl control bytes, service => service.receiveControl control bytes
  | .hangUpControl control, service => service.hangUpControl control
  | .processExited pid, service => service.processExited pid
  | .signal, service => service.signal
  | .advance milliseconds, service => service.advance milliseconds
  | .elsewhere tree clock, service => { service := { service with tree, clock } }

/-- Whether something happens on a control connection. -/
def isSpoken : Operation → Bool
  | .receiveControl .. | .hangUpControl .. => true
  | _ => false

/-- What arrives on a control connection that is open. -/
def bytesOn (operation : Operation) (n : Nat) (service : Service) : Bytes :=
  match operation with
  | .receiveControl control bytes =>
    if control = n ∧ (service.controls.get? n).isSome then bytes else []
  | _ => []

/-- Whether the other side of a control connection that is open finishes writing. -/
def ends (operation : Operation) (n : Nat) (service : Service) : Bool :=
  match operation with
  | .hangUpControl control => control = n ∧ (service.controls.get? n).isSome
  | _ => false

end Operation

/-! ## Away from the control connections -/

theorem orderly_deal {event : ManagerEvent} (other : ∀ request, event ≠ .control request) :
    Orderly fun service => (handle none event service).andThen settle :=
  (orderly_handle other).andThen orderly_settle

theorem orderly_connect (socket : Path) : Orderly fun service => (service.connect socket).2 where
  stopped {service} h := by
    show Stopped (service.connect socket).2.service
    rw [connect]
    split
    · split
      · exact h
      · next hstage => exact absurd hstage (h.not_running _)
      · exact h
      · exact h
    · exact h
  follows {service exchange} h := by
    show Matches exchange (service.connect socket).2
    rw [connect]
    split
    · rw [h.stage]
      dsimp only
      rw [accept, h.stage]
      exact (orderly_deal fun _ => ManagerEvent.noConfusion).follows
        (h.transport ⟨rfl, rfl⟩ rfl rfl h.awake h.looping h.calls)
    · exact h.matches

theorem orderly_readClient (key : ClientKey) (bytes : Bytes) : Orderly (readClient key bytes) where
  stopped {service} h := by
    rw [readClient]
    split
    · exact h
    · exact ((orderly_handleClient _ _).andThen orderly_settle).stopped h
  follows {service exchange} h := by
    rw [readClient]
    split
    · exact h.matches
    · exact ((orderly_handleClient _ _).andThen orderly_settle).follows
        (h.transport ⟨rfl, rfl⟩ rfl h.stage h.awake h.looping h.calls)

theorem orderly_endClient (key : ClientKey) : Orderly (endClient key) where
  stopped {service} h := by
    rw [endClient]
    split
    · exact h
    · exact ((orderly_handleClient _ _).andThen orderly_settle).stopped h
  follows {service exchange} h := by
    rw [endClient]
    split
    · exact h.matches
    · exact ((orderly_handleClient _ _).andThen orderly_settle).follows
        (h.transport ⟨rfl, rfl⟩ rfl h.stage h.awake h.looping h.calls)

theorem orderly_openControl (socket : Path) :
    Orderly fun service => { service := (service.openControl socket).2 } where
  stopped {service} h := by
    show Stopped (service.openControl socket).2
    rw [openControl]
    split <;> exact h
  follows {service exchange} h := by
    show Matches exchange { service := (service.openControl socket).2 }
    rw [openControl]
    split
    · exact h.opens.matches
    · exact h.matches

theorem orderly_advance (milliseconds : Nat) :
    Orderly fun service => service.advance milliseconds where
  stopped {service} h := by
    show Stopped (service.advance milliseconds).service
    rw [advance]
    dsimp only
    split
    · next hstage => rcases h with ⟨_, _, _, h⟩ | ⟨_, h⟩ <;> rw [hstage] at h <;> cases h
    · split
      · exact stopped_finish _ _ _
      · exact h
    · exact orderly_settle.stopped h
  follows {service exchange} h := by
    show Matches exchange (service.advance milliseconds)
    rw [advance]
    dsimp only
    rw [h.stage]
    exact orderly_settle.follows (h.transport ⟨rfl, rfl⟩ rfl rfl h.awake h.looping h.calls)

theorem orderly_perform {operation : Operation} (h : operation.isSpoken = false) :
    Orderly operation.perform := by
  cases operation with
  | connect socket => exact orderly_connect socket
  | receive client bytes =>
      exact (orderly_readClient client bytes).after (fun _ => rfl) fun _ => ⟨rfl, rfl⟩
  | hangUp client => exact (orderly_endClient client).after (fun _ => rfl) fun _ => ⟨rfl, rfl⟩
  | openControl socket => exact orderly_openControl socket
  | receiveControl | hangUpControl => cases h
  | processExited | signal => exact orderly_deal fun _ => ManagerEvent.noConfusion
  | advance milliseconds => exact orderly_advance milliseconds
  | elsewhere => exact orderly_nothing.after (fun _ => rfl) fun _ => ⟨rfl, rfl⟩

/-! ## On a control connection -/

/-- What arrives, before anything is done about it. -/
structure Arrives (operation : Operation) (service : Service) (exchange arrived : Exchange) :
    Prop where
  moves : Relation.ReflTransGen Exchange.Moves exchange arrived
  written : ∀ n, (arrived.attendant n).written = (exchange.attendant n).written
  received : ∀ n, (arrived.attendant n).received =
    (exchange.attendant n).received ++ operation.bytesOn n service
  finished : ∀ n, (arrived.attendant n).finished =
    ((exchange.attendant n).finished || operation.ends n service)

/-- Nothing arrives. -/
theorem arrives_nothing {operation : Operation}
    (hbytes : ∀ n, operation.bytesOn n service = [])
    (hends : ∀ n, operation.ends n service = false) (exchange : Exchange) :
    Arrives operation service exchange exchange where
  moves := .refl
  written _ := rfl
  received n := by rw [hbytes, List.append_nil]
  finished n := by rw [hends, Bool.or_false]

theorem feedControl_open {reader : LineReader} {bytes : Bytes}
    (h : ControlEvent.closed ∉ (reader.feedControl bytes).1) :
    (reader.feedControl bytes).2 = some ((reader.feedControl bytes).2.getD {}) := by
  revert h
  rw [LineReader.feedControl]
  dsimp only
  split
  · next hclosed => exact fun h => absurd (List.contains_iff_mem.mp hclosed) h
  · split
    · exact fun _ => rfl
    · exact fun h => absurd (List.mem_append_right _ List.mem_cons_self) h

theorem closed_mem_endControl (reader : LineReader) :
    ControlEvent.closed ∈ reader.endControl := by
  rw [LineReader.endControl]
  split
  · next hclosed => exact List.contains_iff_mem.mp hclosed
  · exact List.mem_append_right _ List.mem_cons_self

/-- Something that was read on an open control connection is dealt with at once. -/
theorem follows_proceed (h : Follows 0 [] service exchange) {attendant : Attendant}
    {reader : LineReader} {connection : ControlConnection}
    (hopen : service.controls.get? number = some connection)
    (hattends : Attends attendant reader left) :
    Matches (exchange.change number attendant)
      ((proceed number connection reader left service).andThen settle) := by
  rw [proceed, (h.attends hopen).1, List.nil_append]
  exact (follows_handleControl number left (h.hears hopen hattends)
    KeyMap.get?_insert_self).goesOn orderly_settle

/-- What arrives on an open connection changes that connection only. -/
theorem arrives_change {operation : Operation} {attendant : Attendant}
    (hmoves : Exchange.Moves exchange (exchange.change number attendant))
    (hwritten : attendant.written = (exchange.attendant number).written)
    (hreceived : attendant.received =
      (exchange.attendant number).received ++ operation.bytesOn number service)
    (hfinished : attendant.finished =
      ((exchange.attendant number).finished || operation.ends number service))
    (hother : ∀ n ≠ number, operation.bytesOn n service = [] ∧ operation.ends n service = false) :
    Arrives operation service exchange (exchange.change number attendant) := by
  refine ⟨.single hmoves, fun n => ?_, fun n => ?_, fun n => ?_⟩ <;> by_cases hn : n = number
  · rw [hn, Exchange.change_attendant_self, hwritten]
  · rw [Exchange.change_attendant_of_ne hn]
  · rw [hn, Exchange.change_attendant_self, hreceived]
  · rw [Exchange.change_attendant_of_ne hn, (hother n hn).1, List.append_nil]
  · rw [hn, Exchange.change_attendant_self, hfinished]
  · rw [Exchange.change_attendant_of_ne hn, (hother n hn).2, Bool.or_false]

/-- An open connection on which nothing is left to deal with. -/
theorem Follows.open_attends (h : Follows 0 [] service exchange) {connection : ControlConnection}
    (hopen : service.controls.get? number = some connection) :
    (exchange.attendant number).Free ∧ (exchange.attendant number).ahead = [] ∧
      (exchange.attendant number).finished = false ∧
      (exchange.attendant number).reader = some connection.reader := by
  obtain ⟨_, hfree, hahead, hreads⟩ := h.attends hopen
  rw [ite_self] at hahead hreads
  exact ⟨hfree, hahead, hreads List.not_mem_nil⟩

theorem follows_receiveControl (h : Follows 0 [] service exchange) (control : Nat)
    (bytes : Bytes) :
    ∃ arrived, Arrives (.receiveControl control bytes) service exchange arrived ∧
      Matches arrived (service.receiveControl control bytes) := by
  cases hget : service.controls.get? control with
  | none =>
      have hbytes : ∀ n, (Operation.receiveControl control bytes).bytesOn n service = [] :=
        fun n => if_neg fun ⟨hn, hsome⟩ => by
          rw [← hn, hget] at hsome
          cases hsome
      refine ⟨exchange, arrives_nothing hbytes (fun _ => rfl) exchange, ?_⟩
      rw [receiveControl, hget]
      exact h.matches
  | some connection =>
      obtain ⟨hfree, hahead, hmore, hreader⟩ := h.open_attends hget
      have hhear : (exchange.attendant control).hear bytes = { exchange.attendant control with
          received := (exchange.attendant control).received ++ bytes
          reader := (connection.reader.feedControl bytes).2
          ahead := (connection.reader.feedControl bytes).1 } := by
        rw [Attendant.hear, hreader, hahead]
        rfl
      have hmoves := Exchange.Moves.hears bytes hmore
      rw [hhear] at hmoves
      refine ⟨_, arrives_change hmoves rfl ?_ (Bool.or_false _).symm fun n hn => ⟨?_, rfl⟩, ?_⟩
      · rw [Operation.bytesOn, if_pos ⟨rfl, by rw [hget]; rfl⟩]
      · exact if_neg fun hopen => hn hopen.1.symm
      · rw [receiveControl, hget]
        exact follows_proceed h hget
          ⟨hfree, rfl, fun hclosed => ⟨hmore, feedControl_open hclosed⟩⟩

theorem follows_hangUpControl (h : Follows 0 [] service exchange) (control : Nat) :
    ∃ arrived, Arrives (.hangUpControl control) service exchange arrived ∧
      Matches arrived (service.hangUpControl control) := by
  cases hget : service.controls.get? control with
  | none =>
      have hends : ∀ n, (Operation.hangUpControl control).ends n service = false :=
        fun n => decide_eq_false fun ⟨hn, hsome⟩ => by
          rw [← hn, hget] at hsome
          cases hsome
      refine ⟨exchange, arrives_nothing (fun _ => rfl) hends exchange, ?_⟩
      rw [hangUpControl, hget]
      exact h.matches
  | some connection =>
      obtain ⟨hfree, hahead, hmore, hreader⟩ := h.open_attends hget
      have hhear : (exchange.attendant control).hearEnd = { exchange.attendant control with
          finished := true
          reader := none
          ahead := connection.reader.endControl } := by
        rw [Attendant.hearEnd, hreader, hahead]
        rfl
      have hmoves := Exchange.Moves.hearsEnd hmore
      rw [hhear] at hmoves
      refine ⟨_, arrives_change hmoves rfl (List.append_nil _).symm ?_ fun n hn => ⟨rfl, ?_⟩, ?_⟩
      · rw [hmore]
        exact (decide_eq_true ⟨rfl, by rw [hget]; rfl⟩).symm
      · exact decide_eq_false fun hopen => hn hopen.1.symm
      · rw [hangUpControl, hget]
        exact follows_proceed h hget
          ⟨hfree, rfl, fun hclosed => absurd (closed_mem_endControl connection.reader) hclosed⟩

/-- **While its manager runs, a service does what the manager and the attendants may do.** -/
theorem follows_perform (h : Follows 0 [] service exchange) (operation : Operation) :
    ∃ arrived, Arrives operation service exchange arrived ∧
      Matches arrived (operation.perform service) := by
  cases hspoken : operation.isSpoken with
  | true =>
      cases operation with
      | receiveControl control bytes => exact follows_receiveControl h control bytes
      | hangUpControl control => exact follows_hangUpControl h control
      | _ => cases hspoken
  | false =>
      have hnothing : ∀ n, operation.bytesOn n service = [] ∧ operation.ends n service = false :=
        fun n => by
          cases operation with
          | receiveControl | hangUpControl => cases hspoken
          | _ => exact ⟨rfl, rfl⟩
      exact ⟨exchange, arrives_nothing (fun n => (hnothing n).1) (fun n => (hnothing n).2) exchange,
        (orderly_perform hspoken).follows h⟩

theorem stopped_proceed (number : Nat) (connection : ControlConnection) (reader : LineReader)
    (events : List ControlEvent) (h : Stopped service) :
    Stopped ((proceed number connection reader events service).andThen settle).service :=
  orderly_settle.stopped (stopped_handleControl number _ h)

/-- A session that has ended does not come back. -/
theorem stopped_perform (h : Stopped service) (operation : Operation) :
    Stopped (operation.perform service).service := by
  cases hspoken : operation.isSpoken with
  | false => exact (orderly_perform hspoken).stopped h
  | true =>
      cases operation with
      | receiveControl control bytes =>
          show Stopped (service.receiveControl control bytes).service
          rw [receiveControl]
          split
          · exact h
          · exact stopped_proceed _ _ _ _ h
      | hangUpControl control =>
          show Stopped (service.hangUpControl control).service
          rw [hangUpControl]
          split
          · exact h
          · exact stopped_proceed _ _ _ _ h
      | _ => cases hspoken

/-! ## Runs -/

/-- Operations one after the other. -/
def performAll : List Operation → Service → ServiceTurn
  | [], service => { service }
  | operation :: rest, service => (operation.perform service).andThen (performAll rest)

/-- What arrives on a control connection while it is open. -/
def receivedOn (n : Nat) : List Operation → Service → Bytes
  | [], _ => []
  | operation :: rest, service =>
    operation.bytesOn n service ++ receivedOn n rest (operation.perform service).service

/-- Whether the other side of a control connection finishes writing while it is open. -/
def finishedOn (n : Nat) : List Operation → Service → Bool
  | [], _ => false
  | operation :: rest, service =>
    operation.ends n service || finishedOn n rest (operation.perform service).service

theorem stopped_performAll (operations : List Operation) (h : Stopped service) :
    Stopped (performAll operations service).service := by
  induction operations generalizing service with
  | nil => exact h
  | cons operation operations ih => exact ih (stopped_perform h operation)

end Service

namespace Exchange

variable {exchange later : Exchange} {n : Nat}

/-- One connection changes, but not in what was sent on it. -/
theorem sent_change {number : Nat} {attendant : Attendant}
    (hreceived : attendant.received = (exchange.attendant number).received)
    (hfinished : attendant.finished = (exchange.attendant number).finished) (n : Nat) :
    ((exchange.change number attendant).attendant n).received = (exchange.attendant n).received ∧
    ((exchange.change number attendant).attendant n).finished =
      (exchange.attendant n).finished := by
  by_cases hn : n = number
  · rw [hn, change_attendant_self]
    exact ⟨hreceived, hfinished⟩
  · rw [change_attendant_of_ne hn]
    exact ⟨rfl, rfl⟩

/-- What was sent on the connections does not depend on what is done about it. -/
theorem sent_of_goes (h : Relation.ReflTransGen Goes exchange later) (n : Nat) :
    (later.attendant n).received = (exchange.attendant n).received ∧
    (later.attendant n).finished = (exchange.attendant n).finished := by
  induction h with
  | refl => exact ⟨rfl, rfl⟩
  | @tail middle later _ m ih =>
      have hstep : (later.attendant n).received = (middle.attendant n).received ∧
          (later.attendant n).finished = (middle.attendant n).finished := by
        cases m with
        | deals => exact ⟨rfl, rfl⟩
        | serves m =>
            cases m with
            | applies => exact ⟨rfl, rfl⟩
            | refuses | closes | asks | answers => refine sent_change ?_ ?_ n <;> rfl
      exact ⟨hstep.1.trans ih.1, hstep.2.trans ih.2⟩

theorem Reachable.moves {manager : Manager} (h : Reachable manager exchange)
    (hmoves : Relation.ReflTransGen Moves exchange later) : Reachable manager later := by
  induction hmoves with
  | refl => exact h
  | tail _ m ih => exact ih.move m

end Exchange

namespace Service

variable {service : Service} {manager : Manager} {exchange : Exchange}

/-- **While its manager runs, all that a service does may happen in an exchange.** -/
theorem follows_performAll (h : Follows 0 [] service exchange) (operations : List Operation) :
    Stopped (performAll operations service).service ∨ ∃ later,
      Relation.ReflTransGen Exchange.Moves exchange later ∧
      Follows 0 [] (performAll operations service).service later ∧ ∀ n,
        (later.attendant n).written =
          (exchange.attendant n).written ++ (performAll operations service).answers n ∧
        (later.attendant n).received =
          (exchange.attendant n).received ++ receivedOn n operations service ∧
        (later.attendant n).finished =
          ((exchange.attendant n).finished || finishedOn n operations service) := by
  induction operations generalizing service exchange with
  | nil =>
      exact .inr ⟨exchange, .refl, h, fun n => ⟨(List.append_nil _).symm, (List.append_nil _).symm,
        (Bool.or_false _).symm⟩⟩
  | cons operation operations ih =>
      obtain ⟨arrived, harrives, hstopped | ⟨middle, hmiddle, hfollows, hwritten⟩⟩ :=
        follows_perform h operation
      · exact .inl (stopped_performAll operations hstopped)
      · rcases ih hfollows with hstopped | ⟨later, hlater, hdone, hall⟩
        · exact .inl hstopped
        · have hgoes : Relation.ReflTransGen Exchange.Moves arrived middle :=
            Relation.ReflTransGen.mono (fun _ _ m => Exchange.Moves.goes m) _ _ hmiddle
          refine .inr ⟨later, (harrives.moves.trans hgoes).trans hlater, hdone, fun n => ?_⟩
          obtain ⟨hanswers, hreceived, hfinished⟩ := hall n
          obtain ⟨hsent, hended⟩ := Exchange.sent_of_goes hmiddle n
          refine ⟨?_, ?_, ?_⟩
          · rw [hanswers, hwritten, harrives.written, performAll, ServiceTurn.answers_andThen,
              List.append_assoc]
          · rw [hreceived, hsent, harrives.received, receivedOn, List.append_assoc]
          · rw [hfinished, hended, harrives.finished, finishedOn, Bool.or_assoc]

/-- A service without control connections stands where nothing has happened yet. -/
theorem follows_start (hstage : service.stage = .running manager)
    (hawake : manager.completed = false) (hcontrols : service.controls = .empty) :
    Follows 0 [] service { manager } where
  stage := hstage
  awake := hawake
  looping := rfl
  calls := rfl
  attends h := by
    rw [hcontrols] at h
    cases h
  quiet _ := ⟨rfl, .inr rfl⟩
  unopened _ := ⟨by rw [hcontrols]; rfl, rfl⟩

/-- With nothing left to deal with, every attendant is done. -/
theorem Follows.all_quiet (h : Follows 0 [] service exchange) (n : Nat) :
    (exchange.attendant n).Quiet := by
  cases hget : service.controls.get? n with
  | none => exact h.quiet hget
  | some connection =>
      obtain ⟨hfree, hahead, _⟩ := h.open_attends hget
      exact ⟨hfree.2.2, .inr hahead⟩

/-- What becomes of a service is what becomes of its manager and its control connections in an
exchange. -/
structure RunsAs (operations : List Operation) (service : Service) (exchange : Exchange) :
    Prop where
  stage : (performAll operations service).service.stage = .running exchange.manager
  quiet : ∀ n, (exchange.attendant n).Quiet
  received : ∀ n, (exchange.attendant n).received = receivedOn n operations service
  finished : ∀ n, (exchange.attendant n).finished = finishedOn n operations service
  written : ∀ n, (exchange.attendant n).written = (performAll operations service).answers n
  closed : ∀ n, (exchange.attendant n).closed = true →
    (performAll operations service).service.controls.get? n = none

theorem exists_runsAs {later : Manager} (operations : List Operation)
    (hstage : service.stage = .running manager) (hawake : manager.completed = false)
    (hcontrols : service.controls = .empty)
    (hlater : (performAll operations service).service.stage = .running later) :
    ∃ exchange, Exchange.Reachable manager exchange ∧ RunsAs operations service exchange := by
  rcases follows_performAll (follows_start hstage hawake hcontrols) operations with
    hstopped | ⟨exchange, hmoves, hdone, hall⟩
  · exact absurd hlater (hstopped.not_running later)
  · refine ⟨exchange, Exchange.Reachable.start.moves hmoves, hdone.stage, hdone.all_quiet,
      fun n => (hall n).2.1, fun n => (hall n).2.2, fun n => (hall n).1, fun n hclosed => ?_⟩
    cases hget : (performAll operations service).service.controls.get? n with
    | none => rfl
    | some connection =>
        obtain ⟨hfree, _⟩ := hdone.open_attends hget
        rw [hfree.1] at hclosed
        cases hclosed

end Service

/-- **Control requests are answered one to one**, in every exchange between a manager and any
number of control connections; and what a service does while its manager runs is such an
exchange. -/
theorem control_requests_served :
    (∀ manager exchange, Exchange.Reachable manager exchange → Exchange.Served manager exchange) ∧
    ∀ (service : Service) (manager later : Manager) (operations : List Service.Operation),
      service.stage = .running manager → manager.completed = false → service.controls = .empty →
      (Service.performAll operations service).service.stage = .running later →
      ∃ exchange, Exchange.Reachable manager exchange ∧
        Service.RunsAs operations service exchange := by
  refine ⟨fun manager exchange h => Exchange.served_of_reachable h, ?_⟩
  intro service manager later operations hstage hawake hcontrols hlater
  exact Service.exists_runsAs operations hstage hawake hcontrols hlater

/-- The manager, if it runs. -/
def Stage.manager? : Stage → Option Manager
  | .running manager => some manager
  | _ => none

theorem Stage.eq_running_of_manager? {stage : Stage} {manager : Manager}
    (h : stage.manager? = some manager) : stage = .running manager := by
  cases stage with
  | running other => exact congrArg Stage.running (Option.some.inj h)
  | starting | finishing | ended => cases h

/-- A service that listens for control requests, with no program to run. -/
def Service.idle : Service where
  seed := {
    env := { home := none }
    programs := []
    ids := .ofSeeds 0 0 0
    connectionCookie := []
    sessionCookie := [] }
  options := {
    name := none
    runtimeDirectory := ⟨"/run"⟩
    autostartDirectories := []
    phaseTimeout := 0
    handshakeTimeout := 0
    authorityFile := none }
  tree := {
    nodes := [(["run"], .directory FileTree.privateMode), (["control.sock", "run"], .socket)] }
  now := 0
  clock := 0
  authority := { path := ⟨"/auth"⟩ }
  stage := .running { session := Session.new [] (.ofSeeds 0 0 0) }

/-- One connection asks twice, with a blank line between; the other one sends a line that is no
request and then one that is no text. -/
def Service.twoAsk : List Operation :=
  [.openControl ⟨"/run/control.sock"⟩, .openControl ⟨"/run/control.sock"⟩,
    .receiveControl 1 (Wire.written [ControlRequest.ping] ++ [32, lineFeed]),
    .receiveControl 2 [120, lineFeed, 255, lineFeed],
    .receiveControl 1 (Wire.written [ControlRequest.cancelLogout])]

/-- The answers come back on the connection that asked, and the line that is no text closes the
other one. -/
theorem control_requests_served_two :
    ∃ manager exchange, Exchange.Reachable manager exchange ∧ Exchange.Served manager exchange ∧
      (exchange.attendant 1).written =
        [.pong, .error "not_shutting_down" "session is not in shutdown mode"] ∧
      (exchange.attendant 2).written = [.error "bad_request" "malformed request"] ∧
      (exchange.attendant 2).closed = true := by
  have hsome : (Service.performAll Service.twoAsk Service.idle).service.stage.manager?.isSome =
      true := by decide +kernel
  obtain ⟨later, hmanager⟩ := Option.isSome_iff_exists.mp hsome
  obtain ⟨exchange, hreachable, hruns⟩ := control_requests_served.2 Service.idle
    { session := Session.new [] (.ofSeeds 0 0 0) } later Service.twoAsk
    rfl rfl rfl (Stage.eq_running_of_manager? hmanager)
  have hserved := control_requests_served.1 _ exchange hreachable
  have hover : (exchange.attendant 2).over = true := by
    rw [Attendant.over, Attendant.pieces, hruns.finished, hruns.received]
    decide +kernel
  refine ⟨_, exchange, hreachable, hserved, ?_, ?_, ?_⟩
  · rw [hruns.written]
    decide +kernel
  · rw [hruns.written]
    decide +kernel
  · rw [((hserved.serviced 2).settled (hruns.quiet 2)).2, hover]

end Xsmp
