import Xsmp.Session.Basic

/-!
# Starting a session

Each startup phase launches its programs in the order of the list and waits
until all of them have registered, or have exited in the first phase, or the
time is up. A phase with nothing to wait for is left at once. The regular
applications are launched last and not waited for.
-/

namespace Xsmp.Session

/-- Launch the program at a position, if it belongs to the phase and is not disabled. -/
def launchAt (w : Surroundings) (position : Nat) (session : Session) : Turn :=
  match session.programs[position]? with
  | none => { session }
  | some program =>
    if program.manifest.phase ≠ session.phase ∨ w.disabled program.manifest then { session }
    else
      let (clientId, ids) := session.ids.mint (w.clock (some position))
      let program := { program with clientId := some clientId }
      let launched := session.programs.countP (·.pid.isSome)
      let pid := w.launch launched position program
      { session := { session with
          ids
          programs := session.programs.set position { program with pid := pid.or program.pid }
          pending :=
            if pid.isSome ∧ session.phase < .application then session.pending ++ [position]
            else session.pending }
        effects := [.launched position clientId pid] }

def launchEach (w : Surroundings) : List Nat → Session → Turn
  | [], session => { session }
  | position :: rest, session => (launchAt w position session).andThen (launchEach w rest)

def launchPhase (w : Surroundings) (session : Session) : Turn :=
  launchEach w (List.range session.programs.length) session

/-- Go through phases until one has programs to wait for. -/
def enter (w : Surroundings) : List Phase → Session → Turn
  | [], session => { session }
  | phase :: rest, session =>
    (session.setPhase phase).andThen fun session =>
      if phase < .running then
        (launchPhase w session).andThen fun session =>
          if session.pending.isEmpty then enter w rest session
          else { session := { session with deadline := deadlineAfter w.now session.phaseTimeout } }
      else { session }

def endPhase (w : Surroundings) (session : Session) : Turn :=
  enter w session.phase.upcoming session

/-- Start the session. This happens once. -/
def start (w : Surroundings) (session : Session) : Turn :=
  if session.phase = .startup then endPhase w session else { session }

def timeout (w : Surroundings) (session : Session) : Turn :=
  if isDue w.now session.deadline then
    { session, effects := session.pending.map .programTimedOut : Turn }.andThen (endPhase w)
  else { session }

/-- A program that was waited for is there. The phase ends with the last one. -/
def programArrived (w : Surroundings) (position : Nat) (session : Session) : Turn :=
  { session := { session with pending := session.pending.filter (· != position) }
    effects := [.programRegistered position] : Turn }.andThen fun session =>
      if session.pending.isEmpty ∧ session.phase < .application then endPhase w session
      else { session }

/-- The first program the phase waits for of which `is` holds. -/
def pending? (session : Session) (is : Program → Bool) : Option Nat :=
  session.pending.find? fun position => session.programs[position]?.any is

/-- The process of a program has exited. That is all the first phase waits for. The
answer is whether it was waited for. -/
def programExited (w : Surroundings) (pid : Pid) (session : Session) : Bool × Turn :=
  match session.pending? fun program =>
    program.manifest.phase == .initialization && program.pid == some pid with
  | some position => (true, programArrived w position session)
  | none => (false, { session })

/-- The identifier that a client brings with it. An empty one counts as none. -/
def broughtId (previousId : Option String) : Option String := previousId.filter (!·.isEmpty)

/-- Register a client, under the identifier it brings or else under a new one. A program
that brings the identifier made for it has arrived. -/
def register (w : Surroundings) (key : ClientKey) (previousId : Option String)
    (session : Session) : Except SessionError (String × Turn) :=
  if session.phase = .shutdown then .error .shuttingDown
  else match broughtId previousId with
    | some id =>
      if (session.keyOf? id).isSome then .error (.duplicateClientId id)
      else
        let turn : Turn := {
          session := { session with clients := session.clients.insert key id }
          effects := [.called key (.registered id true)] }
        .ok (id, turn.andThen fun session =>
          if session.phase < .application then
            match session.pending? (·.clientId == some id) with
            | some position => programArrived w position session
            | none => { session }
          else { session })
    | none =>
      let (id, ids) := session.ids.mint (w.clock none)
      .ok (id, {
        session := { session with ids, clients := session.clients.insert key id }
        effects := [.called key (.registered id false)] })

end Xsmp.Session
