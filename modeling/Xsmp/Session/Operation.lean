import Xsmp.Session.Shutdown
import Xsmp.Session.Startup

/-!
# Operations on a session

What clients report, and the operations on a session put together. A run of a
session is a sequence of operations, each in surroundings of its own.
-/

namespace Xsmp

inductive ClientEvent where
  /-- A save that the session does not wait for is done. -/
  | savedState
  /-- The client puts off its save until all others are done. -/
  | requestPhase2
  | requestInteraction
  /-- The turn with the user is over, and the user may have cancelled the logout. -/
  | interactionDone (cancelShutdown : Bool)
  | saveYourselfDone
  | disconnected
  | requestLogout
  deriving DecidableEq

namespace ClientEvent

/-- The name of an event, whatever comes with it. -/
def name : ClientEvent → String
  | .savedState => "saved_state"
  | .requestPhase2 => "request_phase2"
  | .requestInteraction => "request_interaction"
  | .interactionDone _ => "interaction_done"
  | .saveYourselfDone => "save_yourself_done"
  | .disconnected => "disconnected"
  | .requestLogout => "request_logout"

/-- The event of a name; `cancelShutdown` is what comes with it where something does. -/
def ofName? (name : String) (cancelShutdown : Bool) : Option ClientEvent :=
  [.savedState, .requestPhase2, .requestInteraction, .interactionDone cancelShutdown,
    .saveYourselfDone, .disconnected, .requestLogout].find? (·.name == name)

theorem ofName?_name (event : ClientEvent) (cancelShutdown : Bool)
    (h : ∀ c, event = .interactionDone c → c = cancelShutdown) :
    ofName? event.name cancelShutdown = some event := by
  cases event with
  | interactionDone c => rw [h c rfl]; rfl
  | _ => rfl

end ClientEvent

namespace Session

/-- A client has gone. It is restarted if it wants to be, unless the session ends or the
client was stopped. -/
def disconnect (w : Surroundings) (key : ClientKey) (session : Session) : Turn :=
  let left := { discharge key session with clients := session.clients.erase key }
  (dropInteractor key left).andThen fun session =>
    let restarts := !session.stopped.contains key && session.phase != .shutdown
      && w.wantsRestart key
    { session := { session with stopped := session.stopped.filter (· != key) }
      effects := if restarts then [.called key .restart] else [] : Turn }.andThen checkBarrier

/-- What a registered client reports is dealt with. -/
def report (w : Surroundings) (key : ClientKey) (event : ClientEvent) (session : Session) :
    Except SessionError Turn :=
  if !session.clients.contains key then .error (.unknownClient key)
  else .ok (match event with
    | .savedState => { session }
    | .requestPhase2 =>
      if session.saving.contains key then
        checkBarrier { session with
          saving := session.saving.filter (· != key)
          deferred := session.deferred.filter (· != key) ++ [key] }
      else { session }
    | .requestInteraction =>
      let queued := { session with interacting := session.interacting ++ [key] }
      if session.interacting.isEmpty then grantTurn queued else { session := queued }
    | .interactionDone cancel =>
      if session.interacting.head? = some key then
        match if cancel then cancelShutdown session else .error .notShuttingDown with
        | .ok turn => turn
        | .error _ => grantTurn { session with interacting := session.interacting.tail }
      else { session }
    | .saveYourselfDone =>
      (dropInteractor key (discharge key session)).andThen checkBarrier
    | .disconnected => disconnect w key session
    | .requestLogout => beginShutdown session)

/-- Ask every client to save its state. -/
def checkpoint (session : Session) : Except SessionError Turn :=
  if session.phase = .shutdown then .error .shuttingDown
  else .ok { session, effects := callEach session.clients.keys .saveState }

/-- Stop a client for good. -/
def stop (key : ClientKey) (session : Session) : Except SessionError Turn :=
  if session.clients.contains key then
    .ok {
      session := { session with
        stopped := session.stopped.filter (· != key) ++ [key] }
      effects := [.called key .die] }
  else .error (.unknownClient key)

inductive Operation where
  | start
  | timeout
  | register (key : ClientKey) (previousId : Option String)
  | programExited (pid : Pid)
  | report (key : ClientKey) (event : ClientEvent)
  | beginShutdown
  | forceShutdown
  | cancelShutdown
  | checkpoint
  | stop (key : ClientKey)

/-- Do an operation. One that is refused does nothing. -/
def perform (w : Surroundings) (operation : Operation) (session : Session) : Turn :=
  let settle (result : Except SessionError Turn) : Turn :=
    match result with
    | .ok turn => turn
    | .error _ => { session }
  match operation with
  | .start => start w session
  | .timeout => timeout w session
  | .register key previousId => settle ((register w key previousId session).map Prod.snd)
  | .programExited pid => (programExited w pid session).2
  | .report key event => settle (report w key event session)
  | .beginShutdown => beginShutdown session
  | .forceShutdown => forceShutdown session
  | .cancelShutdown => settle (cancelShutdown session)
  | .checkpoint => settle (checkpoint session)
  | .stop key => settle (stop key session)

def run (session : Session) : List (Surroundings × Operation) → Turn
  | [] => { session }
  | (w, operation) :: rest => (perform w operation session).andThen (run · rest)

end Session

end Xsmp
