import Xsmp.Session.Basic

/-!
# Ending a session

A logout asks every client to save and waits until all have done so. A client
may put off part of its save until all others are done; those clients are asked
once more, together, when nobody else is left. Then every client is told to die.
A logout may be cancelled, and it may be cut short.
-/

namespace Xsmp.Session

/-- Tell every client to die. -/
def finish (session : Session) : Turn where
  session := { session with finished := true }
  effects := callEach session.clients.keys .die ++ [.shutdownCompleted]

/-- Ask every client to save and quit. This does nothing during a logout. -/
def beginShutdown (session : Session) : Turn :=
  if session.phase = .shutdown then { session }
  else
    (session.setPhase .shutdown).andThen fun session =>
      let session := { session with phase2Started := false, finished := false }
      if session.clients.isEmpty then finish session
      else {
        session := { session with saving := session.clients.keys }
        effects := callEach session.clients.keys (.saveYourself false) }

def forceShutdown (session : Session) : Turn :=
  if session.phase = .shutdown ∧ ¬session.finished then finish session else { session }

/-- Cancel a logout. The session runs again. -/
def cancelShutdown (session : Session) : Except SessionError Turn :=
  if session.phase = .shutdown then
    .ok {
      session := { session with
        phase := .running
        saving := []
        deferred := []
        interacting := []
        phase2Started := false
        finished := false }
      effects := .phaseChanged .running :: callEach session.clients.keys .shutdownCancelled }
  else .error .notShuttingDown

/-- Go on with a logout when nobody is saving any more. -/
def checkBarrier (session : Session) : Turn :=
  if session.phase = .shutdown ∧ ¬session.finished ∧ session.saving.isEmpty then
    if session.deferred.isEmpty then finish session
    else if session.phase2Started then { session }
    else {
      session := { session with phase2Started := true }
      effects :=
        callEach (session.clients.keys.filter session.deferred.contains) .saveYourselfPhase2 }
  else { session }

/-- Tell the first client in the queue that it is its turn. -/
def grantTurn (session : Session) : Turn where
  session
  effects := callEach (session.interacting.head?.filter session.clients.contains).toList .interact

/-- Take a client out of the queue. If it was its turn, the turn passes on. -/
def dropInteractor (key : ClientKey) (session : Session) : Turn :=
  let left := { session with interacting := session.interacting.filter (· != key) }
  if session.interacting.head? = some key then grantTurn left else { session := left }

/-- A client is neither saving nor waiting to save. -/
def discharge (key : ClientKey) (session : Session) : Session :=
  { session with
    saving := session.saving.filter (· != key)
    deferred := session.deferred.filter (· != key) }

end Xsmp.Session
