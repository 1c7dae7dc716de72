import Mathlib.Logic.Function.Basic
import Mathlib.Logic.Relation
import Xsmp.Manager.Service
import Xsmp.Proofs.Connection.Pieces
import Xsmp.Proofs.Manager.Run

/-!
# Control connections and the manager

Every control connection has an attendant, who deals with its lines one after the other. A line
that is no request the attendant answers; a request goes into the queue of the manager, under a
ticket, and the attendant waits until there is an answer for the ticket. The manager takes the
requests from its queue one at a time, between all the other events that it deals with, and
knows nothing of where they come from.

All of them go on independently: what is sent on the connections may arrive at any time and in
any pieces, each attendant goes on when it can, and the manager goes on as long as its loop runs.
-/

namespace Xsmp

/-- The answer to a request, if an action is one. -/
def ManagerAction.answer? : ManagerAction → Option ControlResponse
  | .answered response => some response
  | _ => none

/-- The answers that a manager gives in a turn. -/
def ManagerTurn.answers (turn : ManagerTurn) : List ControlResponse :=
  turn.actions.filterMap ManagerAction.answer?

/-- A request in the queue of the manager. -/
structure Call where
  /-- The answer is waited for under this number. -/
  ticket : Nat
  request : ControlRequest
  /-- The connection that the request came on. The manager does not look at it. -/
  origin : Nat

/-- A control connection with its attendant. -/
structure Attendant where
  /-- What was sent on the connection. -/
  received : Bytes := []
  /-- Whether the other side has finished writing. -/
  finished : Bool := false
  /-- The reader for what follows, if anything more is read. -/
  reader : Option LineReader := some {}
  /-- What was read and has not been dealt with. -/
  ahead : List ControlEvent := []
  /-- The ticket of the request that is waited for. -/
  awaits : Option Nat := none
  /-- What was written on the connection. -/
  written : List ControlResponse := []
  /-- Whether the attendant has closed the connection. -/
  closed : Bool := false
  /-- Whether the other side is gone, so that nothing can be written. -/
  gone : Bool := false

/-- Something that the manager has dealt with. -/
structure Dealing where
  step : Manager.Step
  /-- The connection that a request came on. -/
  origin : Option Nat

/-- A manager with any number of control connections. -/
structure Exchange where
  manager : Manager
  /-- Whether the loop of the manager runs. -/
  looping : Bool := true
  attendant : Nat → Attendant := fun _ => {}
  calls : List Call := []
  /-- The answers by their tickets. -/
  replies : Nat → Option ControlResponse := fun _ => none
  /-- The next ticket. -/
  ticket : Nat := 0
  /-- What the manager has dealt with, in order. -/
  history : List Dealing := []

namespace Attendant

/-- Bytes arrive. -/
def hear (bytes : Bytes) (attendant : Attendant) : Attendant :=
  match attendant.reader with
  | none => { attendant with received := attendant.received ++ bytes }
  | some reader =>
    { attendant with
      received := attendant.received ++ bytes
      reader := (reader.feedControl bytes).2
      ahead := attendant.ahead ++ (reader.feedControl bytes).1 }

/-- The other side has finished writing. -/
def hearEnd (attendant : Attendant) : Attendant :=
  { attendant with
    finished := true
    reader := none
    ahead := attendant.ahead ++ (attendant.reader.map LineReader.endControl).getD [] }

/-- Whether the attendant can deal with the next line. -/
def Free (attendant : Attendant) : Prop :=
  attendant.closed = false ∧ attendant.gone = false ∧ attendant.awaits = none

/-- Whether there is nothing left to deal with. -/
def Quiet (attendant : Attendant) : Prop :=
  attendant.awaits = none ∧ (attendant.closed = true ∨ attendant.ahead = [])

end Attendant

/-! ## What may happen -/

namespace Exchange

/-- One connection changes. -/
def change (exchange : Exchange) (n : Nat) (attendant : Attendant) : Exchange :=
  { exchange with attendant := Function.update exchange.attendant n attendant }

/-- A request goes into the queue. -/
def call (exchange : Exchange) (n : Nat) (request : ControlRequest) : Exchange :=
  { exchange with
    calls := exchange.calls ++ [{ ticket := exchange.ticket, request, origin := n }]
    ticket := exchange.ticket + 1 }

/-- The manager deals with something. -/
def deal (exchange : Exchange) (dealing : Dealing) : Exchange :=
  { exchange with
    manager := (Manager.take dealing.step exchange.manager).manager
    history := exchange.history ++ [dealing] }

/-- The answer to a request is there. -/
def reply (exchange : Exchange) (calls : List Call) (ticket : Nat) (response : ControlResponse) :
    Exchange :=
  { exchange with
    calls, replies := Function.update exchange.replies ticket (some response) }

/-- How a manager deals with a request of a connection. -/
def dealing (w : Surroundings) (call : Call) : Dealing where
  step := (w, .control call.request)
  origin := some call.origin

/-- What the attendants and the manager do about requests. -/
inductive Serves (exchange : Exchange) : Exchange → Prop
  /-- An attendant answers a line that is no request. The text of the answer says what is wrong. -/
  | refuses {n : Nat} {rest : List ControlEvent} (text : String)
      (free : (exchange.attendant n).Free)
      (next : (exchange.attendant n).ahead = .misunderstood :: rest) :
    Serves exchange (exchange.change n { exchange.attendant n with
      ahead := rest
      written := (exchange.attendant n).written ++ [.error "bad_request" text] })
  /-- An attendant closes the connection. -/
  | closes {n : Nat} {rest : List ControlEvent} (free : (exchange.attendant n).Free)
      (next : (exchange.attendant n).ahead = .closed :: rest) :
    Serves exchange (exchange.change n { exchange.attendant n with closed := true })
  /-- An attendant passes a request on and waits. -/
  | asks {n : Nat} {request : ControlRequest} {rest : List ControlEvent}
      (free : (exchange.attendant n).Free)
      (next : (exchange.attendant n).ahead = .request request :: rest) :
    Serves exchange ((exchange.call n request).change n { exchange.attendant n with
      ahead := rest
      awaits := some exchange.ticket })
  /-- The manager takes the first request from its queue. -/
  | applies {call : Call} {calls : List Call} {response : ControlResponse} (w : Surroundings)
      (looping : exchange.looping = true) (first : exchange.calls = call :: calls)
      (answer : (Manager.take (dealing w call).step exchange.manager).answers = [response]) :
    Serves exchange ((exchange.deal (dealing w call)).reply calls call.ticket response)
  /-- An attendant writes the answer that it has waited for. -/
  | answers {n ticket : Nat} {response : ControlResponse}
      (there : (exchange.attendant n).gone = false)
      (awaits : (exchange.attendant n).awaits = some ticket)
      (reply : exchange.replies ticket = some response) :
    Serves exchange (exchange.change n { exchange.attendant n with
      awaits := none
      written := (exchange.attendant n).written ++ [response] })

/-- What the attendants and the manager do. -/
inductive Goes (exchange : Exchange) : Exchange → Prop
  | serves {next : Exchange} (h : Serves exchange next) : Goes exchange next
  /-- The manager deals with anything but a request. -/
  | deals (step : Manager.Step) (looping : exchange.looping = true)
      (other : ∀ request, step.2 ≠ .control request) :
    Goes exchange (exchange.deal { step, origin := none })

/-- Everything that may happen. -/
inductive Moves (exchange : Exchange) : Exchange → Prop
  | goes {next : Exchange} (h : Goes exchange next) : Moves exchange next
  /-- Bytes arrive on a connection. -/
  | hears {n : Nat} (bytes : Bytes) (more : (exchange.attendant n).finished = false) :
    Moves exchange (exchange.change n ((exchange.attendant n).hear bytes))
  /-- The other side of a connection finishes writing. -/
  | hearsEnd {n : Nat} (more : (exchange.attendant n).finished = false) :
    Moves exchange (exchange.change n (exchange.attendant n).hearEnd)
  /-- The other side of a connection goes away. -/
  | leaves (n : Nat) :
    Moves exchange (exchange.change n { exchange.attendant n with gone := true })
  /-- The loop of the manager ends after the session has. -/
  | stops (completed : exchange.manager.completed = true) :
    Moves exchange { exchange with looping := false }

/-- What may come of a manager whose control connections have not sent anything yet. -/
inductive Reachable (manager : Manager) : Exchange → Prop
  | start : Reachable manager { manager }
  | move {exchange next : Exchange} (h : Reachable manager exchange)
      (m : Moves exchange next) : Reachable manager next

end Exchange

/-! ## What is to come of it -/

namespace Piece

/-- The lines that pieces hold up to the first one that is too long or no text. A line that is
no request is `none`, and blank ones are left out. -/
def requests (pieces : List Piece) : List (Option ControlRequest) :=
  ((((pieces.map text?).takeWhile Option.isSome).filterMap id).filter (!isBlankLine ·)).map
    Wire.decode?

/-- Whether a piece ends a control connection: it is too long or no text. -/
def bad (piece : Piece) : Bool := piece.text?.isNone

end Piece

/-- The pieces of what was sent. -/
def Attendant.pieces (attendant : Attendant) : List Piece :=
  if attendant.finished then Piece.cut attendant.received else Piece.arrived attendant.received

/-- The lines of a connection that are to be answered. -/
def Attendant.lines (attendant : Attendant) : List (Option ControlRequest) :=
  Piece.requests attendant.pieces

/-- Whether no further line is to be answered. -/
def Attendant.over (attendant : Attendant) : Bool :=
  attendant.finished || attendant.pieces.any Piece.bad

/-- Answers belong to lines one to one: a request is answered with its result, and a line that
is no request with an error. -/
inductive Answered :
    List (Option ControlRequest) → List (ControlRequest × ControlResponse) →
      List ControlResponse → Prop
  | nothing : Answered [] [] []
  | refused {lines results written} (text : String) (h : Answered lines results written) :
    Answered (lines ++ [none]) results (written ++ [.error "bad_request" text])
  | applied {lines results written} (request : ControlRequest) (response : ControlResponse)
      (h : Answered lines results written) :
    Answered (lines ++ [some request]) (results ++ [(request, response)]) (written ++ [response])

/-- The request of a connection that a manager deals with, and the answer. -/
def Dealing.results (n : Nat) (manager : Manager) (dealing : Dealing) :
    List (ControlRequest × ControlResponse) :=
  match dealing.step.2 with
  | .control request =>
    if dealing.origin = some n then
      (Manager.take dealing.step manager).answers.map fun response => (request, response)
    else []
  | _ => []

/-- The requests of a connection that a manager has applied, with the answers. -/
def Manager.applied (n : Nat) (manager : Manager) :
    List Dealing → List (ControlRequest × ControlResponse)
  | [] => []
  | dealing :: rest =>
    dealing.results n manager ++ applied n (take dealing.step manager).manager rest

namespace Exchange

/-- The requests of a connection are served. -/
structure Serviced (manager : Manager) (exchange : Exchange) (n : Nat) : Prop where
  /-- What was written answers the first lines, and what was applied are the requests among
  these lines; the answer to one more request may be on its way. -/
  answered : ∃ dealt left results,
    (exchange.attendant n).lines = dealt ++ left ∧
    Answered dealt results (exchange.attendant n).written ∧
    (manager.applied n exchange.history = results ∨ ∃ request response,
      left.head? = some (some request) ∧
      manager.applied n exchange.history = results ++ [(request, response)])
  /-- With nothing left to deal with, every line was answered, and the connection is closed if
  and only if no further line is to be. -/
  settled : (exchange.attendant n).Quiet →
    Answered (exchange.attendant n).lines (manager.applied n exchange.history)
      (exchange.attendant n).written ∧
    (exchange.attendant n).closed = (exchange.attendant n).over
  /-- While the loop runs and the other side is there, nothing has to be waited for but what the
  attendants and the manager do about requests. -/
  settles : exchange.looping = true → (exchange.attendant n).gone = false →
    ∃ later, Relation.ReflTransGen Serves exchange later ∧ (later.attendant n).Quiet ∧
      (later.attendant n).lines = (exchange.attendant n).lines

/-- Control requests are served, whatever else happens. -/
structure Served (manager : Manager) (exchange : Exchange) : Prop where
  /-- Nothing but what the manager has dealt with has any effect on the session. -/
  manager_eq : exchange.manager =
    (manager.handleEach (exchange.history.map Dealing.step)).manager
  /-- Every request that the manager has dealt with came on some connection. -/
  origin : ∀ dealing ∈ exchange.history, ∀ request, dealing.step.2 = .control request →
    ∃ n, dealing.origin = some n
  serviced : ∀ n, Serviced manager exchange n

end Exchange

end Xsmp
