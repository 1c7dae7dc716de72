import Xsmp.Data.KeyMap
import Xsmp.Data.Time
import Xsmp.Manifest.Basic
import Xsmp.Session.ClientId
import Xsmp.Session.Phase

/-!
# Sessions

A session starts programs, registers clients and ends by asking all of them to
save. It does nothing by itself: each operation yields the session afterwards
and, in order, what it has done to its surroundings, be it a call to a client,
the launch of a program, or word to whoever runs the session. A client is known
to the session by the key of its connection and by its identifier; all else
about it is kept elsewhere.
-/

namespace Xsmp

/-- The key of a client's connection. A key is never used twice. -/
abbrev ClientKey := Nat

abbrev Pid := Nat

structure Program where
  manifest : Manifest
  /-- The identifier made for it when its launch was tried. -/
  clientId : Option String := none
  /-- Its process, once it was launched. -/
  pid : Option Pid := none

inductive ClientCall where
  /-- It is registered under an identifier, be it its own from an earlier session. -/
  | registered (clientId : String) (resumed : Bool)
  | restart
  /-- Save for yourself, the session goes on. -/
  | saveState
  /-- Save, the session ends; `full` asks for your own state as well as the user's data. -/
  | saveYourself (full : Bool)
  /-- Save what had to wait for all others. -/
  | saveYourselfPhase2
  /-- It is your turn with the user. -/
  | interact
  | shutdownCancelled
  | die
  deriving DecidableEq

/-- The name of a call, whatever comes with it. -/
def ClientCall.name : ClientCall → String
  | .registered .. => "registered"
  | .restart => "restart"
  | .saveState => "save_state"
  | .saveYourself _ => "save_yourself"
  | .saveYourselfPhase2 => "save_yourself_phase2"
  | .interact => "interact"
  | .shutdownCancelled => "shutdown_cancelled"
  | .die => "die"

/-- What a session does. Programs are told by their position in the list. -/
inductive Effect where
  | phaseChanged (phase : Phase)
  /-- A program that was waited for has registered or, in the first phase, exited. -/
  | programRegistered (position : Nat)
  /-- A program that was waited for has done neither in time. -/
  | programTimedOut (position : Nat)
  /-- All clients were told to die. -/
  | shutdownCompleted
  /-- The launch of a program was tried under an identifier made for it. -/
  | launched (position : Nat) (clientId : String) (pid : Option Pid)
  | called (client : ClientKey) (call : ClientCall)
  deriving DecidableEq

/-- Why a session refuses an operation. -/
inductive SessionError where
  | notShuttingDown
  | shuttingDown
  | duplicateClientId (clientId : String)
  | unknownClient (client : ClientKey)
  deriving DecidableEq

namespace SessionError

def message : SessionError → String
  | .notShuttingDown => "session is not in shutdown mode"
  | .shuttingDown => "refusing new client because the session is currently being shut down"
  | .duplicateClientId id => "client id " ++ id ++ " is already in use"
  | .unknownClient key => "no client registered under #" ++ toString key

end SessionError

/-- What a session finds around it while an operation lasts. -/
structure Surroundings where
  now : Moment
  /-- The wall clock when the identifier for the program at a position is made, or the one
  for a new client. -/
  clock : Option Nat → Timestamp
  /-- Whether a program is not to be started. -/
  disabled : Manifest → Bool
  /-- The process of the program at a position, or none if it cannot be launched; `launched`
  counts the processes of the session before it. -/
  launch : (launched position : Nat) → Program → Option Pid
  /-- Whether a client wants to be restarted as soon as it exits. -/
  wantsRestart : ClientKey → Bool

structure Session where
  name : Option String := none
  phase : Phase := .startup
  /-- How long a startup phase waits for its programs, in milliseconds. -/
  phaseTimeout : Nat := 10000
  /-- When the phase no longer waits for its programs. -/
  deadline : Option Moment := none
  programs : List Program
  /-- The positions of the programs that the phase waits for, in ascending order. -/
  pending : List Nat := []
  ids : ClientIds
  /-- The registered clients with their identifiers. -/
  clients : KeyMap String := .empty
  /-- The clients whose save for the logout is not done. -/
  saving : List ClientKey := []
  /-- The clients that wait to save until all others are done. -/
  deferred : List ClientKey := []
  /-- The clients that were stopped and are not to come back. -/
  stopped : List ClientKey := []
  /-- The clients that asked for a turn with the user; it is the first one's turn. -/
  interacting : List ClientKey := []
  /-- Whether the deferred clients were asked to save. -/
  phase2Started : Bool := false
  finished : Bool := false

/-- What an operation leaves behind. -/
structure Turn where
  session : Session
  /-- What the session has done, in order. -/
  effects : List Effect := []

/-- Go on after a turn. -/
def Turn.andThen (turn : Turn) (next : Session → Turn) : Turn where
  session := (next turn.session).session
  effects := turn.effects ++ (next turn.session).effects

namespace Session

variable (session : Session)

/-- A session of programs that has not started. -/
def new (manifests : List Manifest) (ids : ClientIds) : Session where
  programs := manifests.map fun manifest => { manifest }
  ids

/-- The client that is registered under an identifier. -/
def keyOf? (clientId : String) : Option ClientKey :=
  (session.clients.entries.find? (·.2 == clientId)).map Prod.fst

def interactingClient? : Option ClientKey := session.interacting.head?

def pendingPrograms : List Program := session.pending.filterMap (session.programs[·]?)

def callEach (clients : List ClientKey) (call : ClientCall) : List Effect :=
  clients.map (.called · call)

/-- Begin a phase. Nothing is waited for yet. -/
def setPhase (phase : Phase) : Turn where
  session := { session with phase, pending := [], deadline := none }
  effects := [.phaseChanged phase]

end Session

end Xsmp
