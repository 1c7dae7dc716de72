import Xsmp.Client.Participant
import Xsmp.Control.Message
import Xsmp.Session.Operation

/-!
# The session manager

The manager owns the session. It gives every connection a key, waits for the
client behind it to register, and from then on passes on what the client says to
the session and what the session asks of the client. All that can happen to it
is one of a few events, and each event is dealt with completely before the next.
-/

namespace Xsmp

/-- A client that has connected and not yet registered. -/
structure Handshake where
  participant : Participant
  /-- When the client has to have registered. -/
  deadline : Option Moment

/-- Something that happens to a session manager. -/
inductive ManagerEvent where
  /-- A client has connected. -/
  | accepted
  | message (client : ClientKey) (message : ClientMessage)
  /-- A client's input has ended or could not be understood. -/
  | closed (client : ClientKey)
  | control (request : ControlRequest)
  | programExited (pid : Pid)
  /-- It is time to look at the deadline of the phase. -/
  | phaseTimeout
  /-- It is time to look at the deadlines of the handshakes. -/
  | handshakeTimeout
  /-- The manager is told to end. -/
  | signal
  deriving DecidableEq

/-- Something that a session manager does. -/
inductive ManagerAction where
  | sent (client : ClientKey) (message : ManagerMessage)
  /-- The connection of a client is closed once everything sent on it has gone out. -/
  | closed (client : ClientKey)
  /-- The answer to a control request. -/
  | answered (response : ControlResponse)
  /-- The launch of the program at a position was tried. -/
  | launched (position : Nat) (clientId : String) (pid : Option Pid)
  /-- A client that has gone is restarted, if it left a command for that. -/
  | restarted (participant : Participant)

structure Manager where
  session : Session
  participants : KeyMap Participant := .empty
  handshakes : KeyMap Handshake := .empty
  connections : List ClientKey := []
  /-- The key that was given last. -/
  lastKey : ClientKey := 0
  /-- How long a client may take to register, in milliseconds. -/
  handshakeTimeout : Nat := 5000
  /-- Whether the session has ended. Nothing is done after that. -/
  completed : Bool := false

/-- What an event leaves behind. -/
structure ManagerTurn where
  manager : Manager
  /-- What the manager has done, in order. -/
  actions : List ManagerAction := []

/-- Go on after a turn. -/
def ManagerTurn.andThen (turn : ManagerTurn) (next : Manager → ManagerTurn) : ManagerTurn where
  manager := (next turn.manager).manager
  actions := turn.actions ++ (next turn.manager).actions

namespace Manager

/-- The reason given to a client that does not begin with its registration. -/
def unregisteredReason : String := "expected RegisterClient"

/-- Do what the session asks for. -/
def relay (effect : Effect) (manager : Manager) : ManagerTurn :=
  match effect with
  | .called key .restart =>
    { manager, actions := (manager.participants.get? key).toList.map .restarted }
  | .called key call =>
    match manager.participants.get? key with
    | none => { manager }
    | some participant =>
      let reaction := participant.called call
      { manager := { manager with
          participants := manager.participants.insert key reaction.participant }
        actions := reaction.sent.map (.sent key) }
  | .launched position clientId pid => { manager, actions := [.launched position clientId pid] }
  | .shutdownCompleted => { manager := { manager with completed := true } }
  | .phaseChanged _ | .programRegistered _ | .programTimedOut _ => { manager }

def relayAll : List Effect → Manager → ManagerTurn
  | [], manager => { manager }
  | effect :: rest, manager => (relay effect manager).andThen (relayAll rest)

/-- Take over what an operation on the session leaves behind. -/
def follow (manager : Manager) (turn : Turn) : ManagerTurn :=
  relayAll turn.effects { manager with session := turn.session }

def close (key : ClientKey) (manager : Manager) : ManagerTurn :=
  if manager.connections.contains key then
    { manager := { manager with connections := manager.connections.filter (· != key) }
      actions := [.closed key] }
  else { manager }

def refuse (key : ClientKey) (reason : String) (manager : Manager) : ManagerTurn :=
  { manager, actions := [.sent key (Participant.refusal reason)] : ManagerTurn }.andThen (close key)

/-- The surroundings of the session: whether a client wants to be restarted is known from
its properties. -/
def surroundings (manager : Manager) (w : Surroundings) : Surroundings :=
  { w with
    wantsRestart := fun key =>
      (manager.participants.get? key).any (·.properties.restartsAtOnce) }

/-- The first message of a client. -/
def greet (w : Surroundings) (key : ClientKey) (participant : Participant)
    (message : ClientMessage) (manager : Manager) : ManagerTurn :=
  match message with
  | .registerClient previousId =>
    match manager.session.register (manager.surroundings w) key previousId with
    | .ok (_, turn) =>
      { manager with participants := manager.participants.insert key participant }.follow turn
    | .error error => refuse key error.message manager
  | _ => refuse key unregisteredReason manager

def report (w : Surroundings) (key : ClientKey) (event : ClientEvent) (manager : Manager) :
    ManagerTurn :=
  match manager.session.report (manager.surroundings w) key event with
  | .ok turn => manager.follow turn
  | .error _ => { manager }

/-- A client leaves the session, and its connection is closed. -/
def leave (w : Surroundings) (key : ClientKey) (manager : Manager) : ManagerTurn :=
  ((report w key .disconnected manager).andThen fun manager =>
    { manager := { manager with participants := manager.participants.erase key } }).andThen
      (close key)

/-- A message of a client. -/
def receive (w : Surroundings) (key : ClientKey) (message : ClientMessage) (manager : Manager) :
    ManagerTurn :=
  match manager.handshakes.get? key with
  | some handshake =>
    greet w key handshake.participant message
      { manager with handshakes := manager.handshakes.erase key }
  | none =>
    match manager.participants.get? key with
    | none => { manager }
    | some participant =>
      let reaction := participant.received message
      { manager := { manager with
          participants := manager.participants.insert key reaction.participant }
        actions := reaction.sent.map (.sent key) : ManagerTurn }.andThen fun manager =>
          match reaction.reported with
          | none => { manager }
          | some .disconnected => leave w key manager
          | some event => report w key event manager

/-- The end of a client's input. -/
def lose (w : Surroundings) (key : ClientKey) (manager : Manager) : ManagerTurn :=
  if manager.handshakes.contains key then
    close key { manager with handshakes := manager.handshakes.erase key }
  else leave w key manager

def accept (now : Moment) (manager : Manager) : Manager :=
  let key := manager.lastKey + 1
  { manager with
    lastKey := key
    connections := manager.connections ++ [key]
    handshakes := manager.handshakes.insert key {
      participant := .new key
      deadline := deadlineAfter now manager.handshakeTimeout } }

/-- The clients that have not registered in time. -/
def overdue (now : Moment) (manager : Manager) : List ClientKey :=
  (manager.handshakes.entries.filter fun (_, handshake) => isDue now handshake.deadline).map Prod.fst

/-- Turn away clients that have not registered in time. -/
def expire : List ClientKey → Manager → ManagerTurn
  | [], manager => { manager }
  | key :: rest, manager =>
    (close key { manager with handshakes := manager.handshakes.erase key }).andThen (expire rest)

def clientSummaries (manager : Manager) : List ClientSummary :=
  manager.session.clients.entries.filterMap fun (key, clientId) =>
    (manager.participants.get? key).map fun participant =>
      { clientId, description := participant.label, pid := participant.properties.pid? }

/-- A control request and its answer. -/
def control (request : ControlRequest) (manager : Manager) : ManagerTurn :=
  let answer (response : ControlResponse) (turn : ManagerTurn) : ManagerTurn :=
    turn.andThen fun manager => { manager, actions := [.answered response] }
  let outcome (code : String) (result : Except SessionError Turn) : ManagerTurn :=
    match result with
    | .ok turn => answer .ok (manager.follow turn)
    | .error error => answer (.error code error.message) { manager }
  match request with
  | .ping => answer .pong { manager }
  | .status =>
    answer (.status manager.session.name manager.session.phase.name manager.clientSummaries)
      { manager }
  | .logout => answer .ok (manager.follow manager.session.beginShutdown)
  | .cancelLogout => outcome "not_shutting_down" manager.session.cancelShutdown
  | .checkpoint => outcome "shutting_down" manager.session.checkpoint

/-- The manager is told to end. The first time is a logout; during a logout it is not waited
for any longer. -/
def interrupt (manager : Manager) : ManagerTurn :=
  manager.follow (if manager.session.phase = .shutdown then manager.session.forceShutdown
    else manager.session.beginShutdown)

def handle (w : Surroundings) (event : ManagerEvent) (manager : Manager) : ManagerTurn :=
  match event with
  | .accepted => { manager := accept w.now manager }
  | .message key message => receive w key message manager
  | .closed key => lose w key manager
  | .control request => control request manager
  | .programExited pid =>
    manager.follow (manager.session.programExited (manager.surroundings w) pid).2
  | .phaseTimeout => manager.follow (manager.session.timeout (manager.surroundings w))
  | .handshakeTimeout => expire (manager.overdue w.now) manager
  | .signal => interrupt manager

/-- Deal with an event unless the session has ended. -/
def step (w : Surroundings) (event : ManagerEvent) (manager : Manager) : ManagerTurn :=
  if manager.completed then { manager } else handle w event manager

def start (w : Surroundings) (manager : Manager) : ManagerTurn :=
  manager.follow (manager.session.start (manager.surroundings w))

/-- Deal with events one after the other. -/
def run (manager : Manager) : List (Surroundings × ManagerEvent) → ManagerTurn
  | [] => { manager }
  | (w, event) :: rest => (step w event manager).andThen (run · rest)

end Manager

end Xsmp
