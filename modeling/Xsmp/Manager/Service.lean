import Xsmp.Authority.File
import Xsmp.Connection.Reading
import Xsmp.Control.Remote
import Xsmp.Manager.Basic
import Xsmp.Manifest.Autostart
import Xsmp.Settings.Basic

/-!
# Running a session manager

A service is a session manager with everything around it: the sockets it
listens on, its entries in the authority file, its connections and its timers.
It comes up by preparing its directory, binding both sockets and publishing its
cookies; it goes down by taking the cookies back and closing what is open. The
lock of the authority file may have to be waited for on both occasions.
-/

namespace Xsmp

/-- Why a session manager could not be started. -/
inductive StartError where
  | runtimeDirectory (path : Path) (cause : HostError)
  | bind (path : Path) (cause : HostError)
  | authority (error : AuthorityError)
  deriving DecidableEq

namespace StartError

def message : StartError → String
  | .runtimeDirectory path cause =>
    "cannot prepare runtime directory " ++ path.text ++ ": " ++ cause.message
  | .bind path cause => "failed to bind " ++ path.text ++ ": " ++ cause.message
  | .authority error => error.message

/-- The host's answer behind an error. -/
def cause? : StartError → Option HostError
  | .runtimeDirectory _ cause | .bind _ cause => some cause
  | .authority error => error.cause?

/-- An error as the command line reports it, followed by the host's answer behind it. -/
def report (error : StartError) : String :=
  "failed to start session manager: " ++ error.message
    ++ (error.cause?.map fun cause => ": " ++ cause.message).getD ""

end StartError

/-- What a service finds in its process when it starts. -/
structure ServiceSeed where
  env : Environment
  /-- The programs that can be started by name. -/
  programs : List String
  ids : ClientIds
  connectionCookie : Cookie
  sessionCookie : Cookie

/-- A connection that was made before it could be accepted, or too late to be. -/
structure Waiting where
  key : ClientKey
  /-- What was written on it. -/
  bytes : Bytes := []
  /-- Whether the other side has finished writing. -/
  ended : Bool := false

/-- A control connection. While a request waits for its answer, what comes after it waits
too. -/
structure ControlConnection where
  reader : LineReader := {}
  /-- The request that waits, and what comes after it. -/
  held : List ControlEvent := []

/-- How far a service has come. -/
inductive Stage where
  /-- The lock of the authority file is waited for until a moment. -/
  | starting (lock : LockStage) (wake : Moment)
  | running (manager : Manager)
  /-- The session has ended. The lock of the authority file is waited for until a moment. -/
  | finishing (manager : Manager) (lock : LockStage) (wake : Moment)
  | ended (failure : Option StartError)

/-- A session manager with everything around it. -/
structure Service where
  seed : ServiceSeed
  options : ManagerOptions
  tree : FileTree
  now : Moment
  clock : Timestamp
  authority : Authority
  stage : Stage
  /-- The clients whose input is read. -/
  readers : KeyMap LineReader := .empty
  /-- The control connections. -/
  controls : KeyMap ControlConnection := .empty
  lastControl : Nat := 0
  waiting : List Waiting := []

/-- Something that a service does and others see. -/
inductive ServiceAction where
  | sent (client : ClientKey) (message : ManagerMessage)
  | closed (client : ClientKey)
  | answered (control : Nat) (response : ControlResponse)
  | dropped (control : Nat)
  /-- A program was started; its exit is waited for if it has a process number here. -/
  | started (command : Command) (watched : Option Pid)

/-- What an operation on a service leaves behind. -/
structure ServiceTurn where
  service : Service
  /-- What the service has done, in order. -/
  actions : List ServiceAction := []

/-- Go on after a turn. -/
def ServiceTurn.andThen (turn : ServiceTurn) (next : Service → ServiceTurn) : ServiceTurn where
  service := (next turn.service).service
  actions := turn.actions ++ (next turn.service).actions

/-- The answers that a control connection got in a turn. -/
def ServiceTurn.answers (turn : ServiceTurn) (control : Nat) : List ControlResponse :=
  turn.actions.filterMap fun action => match action with
    | .answered number response => if number = control then some response else none
    | _ => none

/-- Whether a control connection was closed in a turn. -/
def ServiceTurn.drops (turn : ServiceTurn) (control : Nat) : Bool :=
  turn.actions.any fun action => match action with
    | .dropped number => number == control
    | _ => false

namespace Service

variable (service : Service)

def clientSocket : Path := Xsmp.clientSocket service.options.runtimeDirectory

def controlSocket : Path := Xsmp.controlSocket service.options.runtimeDirectory

/-- The network id of the session. -/
def networkId : String := Xsmp.networkId service.seed.env.host service.clientSocket

/-- What can be started. -/
def finder : ProgramFinder := { programs := service.seed.programs, tree := service.tree }

/-- What the session finds around it. The processes of a session are told apart by the
positions of their programs. -/
def surroundings : Surroundings where
  now := service.now
  clock _ := service.clock
  disabled manifest := manifest.disabled service.tree service.seed.env.configDirectory
  launch _ position program :=
    match program.manifest.launch service.finder service.networkId program.clientId with
    | .ok _ => some (position + 1)
    | .error _ => none
  wantsRestart _ := false

/-- Remove the sockets, if they can be removed. -/
def unbind : Service :=
  let remove (tree : FileTree) (path : Path) : FileTree := (tree.remove path).toOption.getD tree
  { service with tree := remove (remove service.tree service.controlSocket) service.clientSocket }

/-- Close the control connections with a request that nobody will answer. -/
def dropHeld (service : Service) : ServiceTurn :=
  let held := service.controls.entries.filter fun (_, connection) => !connection.held.isEmpty
  { service := { service with
      controls := held.foldl (fun controls (number, _) => controls.erase number) service.controls }
    actions := held.map fun (number, _) => .dropped number }

/-- The service could not be started. -/
def fail (error : StartError) : ServiceTurn :=
  { service := { service.unbind with stage := .ended (some error), waiting := [] }
    actions := service.waiting.map fun waiting => .closed waiting.key : ServiceTurn }.andThen
      dropHeld

/-! Ending. -/

/-- Close everything that is open. -/
def windUp (manager : Manager) : ServiceTurn :=
  { service := { service.unbind with stage := .ended none, readers := .empty, waiting := [] }
    actions := (manager.connections ++ service.waiting.map Waiting.key).map .closed
      : ServiceTurn }.andThen dropHeld

/-- Go on taking the cookies back. Whether that works out does not matter. -/
def finish (manager : Manager) (lock : LockStage) : ServiceTurn :=
  let (tree, lock) := lock.advance service.authority service.clock service.tree
  match lock with
  | .asleep _ =>
    { service := { service with
        tree
        stage := .finishing manager lock (service.now + service.authority.interval) } }
  | .held =>
    let (tree, _) :=
      service.authority.replaceAndRelease tree service.networkId [] service.clock
    windUp { service with tree } manager
  | _ => windUp { service with tree } manager

/-! Running. -/

/-- What others see of what the manager has done. The answer to a control request goes to
the connection it came from. -/
def expose (control : Option Nat) (manager : Manager) (action : ManagerAction)
    (service : Service) : ServiceTurn :=
  match action with
  | .sent key message => { service, actions := [.sent key message] }
  | .closed key =>
    { service := { service with readers := service.readers.erase key }, actions := [.closed key] }
  | .answered response =>
    { service, actions := control.toList.map fun number => .answered number response }
  | .launched position clientId pid =>
    { service
      actions := (do
        let program ← manager.session.programs[position]?
        let pid ← pid
        let command ←
          (program.manifest.command service.networkId clientId).toOption
        return ServiceAction.started command
          (if program.manifest.watched then some pid else none)).toList }
  | .restarted participant =>
    { service
      actions :=
        (participant.restart service.finder service.networkId).toOption.toList.map
          (.started · none) }

def exposeAll (control : Option Nat) (manager : Manager) :
    List ManagerAction → Service → ServiceTurn
  | [], service => { service }
  | action :: rest, service =>
    (expose control manager action service).andThen (exposeAll control manager rest)

/-- Take over what the manager has done. When the session has ended, so does the service. -/
def adopt (control : Option Nat) (turn : ManagerTurn) : ServiceTurn :=
  (exposeAll control turn.manager turn.actions
    { service with stage := .running turn.manager }).andThen fun service =>
      if turn.manager.completed then finish service turn.manager (.checking .created) else { service }

/-- Something happens to the manager, if it is running. -/
def handle (control : Option Nat) (event : ManagerEvent) (service : Service) : ServiceTurn :=
  match service.stage with
  | .running manager => service.adopt control (manager.step service.surroundings event)
  | _ => { service }

/-- Something happens on a client's connection. -/
def handleClient (key : ClientKey) : List ConnectionEvent → Service → ServiceTurn
  | [], service => { service }
  | event :: rest, service =>
    (handle none (match event with
      | .message m => .message key m
      | .closed => .closed key) service).andThen (handleClient key rest)

/-- The answer to a line that is no request. -/
def misunderstood : ControlResponse := .error "bad_request" "malformed request"

/-- Something happens on a control connection. A request is answered by a manager that runs.
It waits for one that does not run yet, and for one that ends; once there is none, the
connection is closed. -/
def handleControl (number : Nat) : List ControlEvent → Service → ServiceTurn
  | [], service => { service }
  | event :: rest, service =>
    let drop : ServiceTurn :=
      { service := { service with controls := service.controls.erase number }
        actions := [.dropped number] }
    match event with
    | .misunderstood =>
      { service, actions := [.answered number misunderstood] : ServiceTurn }.andThen
        (handleControl number rest)
    | .closed => drop
    | .request request =>
      match service.stage with
      | .running _ =>
        (handle (some number) (.control request) service).andThen (handleControl number rest)
      | .ended _ => drop
      | _ =>
        { service := { service with
            controls := service.controls.modify number fun connection =>
              { connection with held := event :: rest } } }

/-- Go on with a control connection after what was held there, with what has come since. -/
def proceed (number : Nat) (connection : ControlConnection) (reader : LineReader)
    (events : List ControlEvent) (service : Service) : ServiceTurn :=
  handleControl number (connection.held ++ events)
    { service with controls := service.controls.insert number { reader } }

/-- Go on with the control connections where requests have waited. -/
def proceedAll : List (Nat × ControlConnection) → Service → ServiceTurn
  | [], service => { service }
  | (number, connection) :: rest, service =>
    (proceed number connection connection.reader [] service).andThen (proceedAll rest)

/-! Time. -/

/-- Whether it is time to do something. -/
def phaseDue : Bool :=
  match service.stage with
  | .running manager => isDue service.now manager.session.deadline
  | _ => false

def handshakeDue : Bool :=
  match service.stage with
  | .running manager => !(manager.overdue service.now).isEmpty
  | _ => false

/-- Leave phases as long as their time is up; there are at most `left`. -/
def timePhases : Nat → Service → ServiceTurn
  | 0, service => { service }
  | left + 1, service =>
    if service.phaseDue then (handle none .phaseTimeout service).andThen (timePhases left)
    else { service }

/-- Do what is due while the manager runs. -/
def settle (service : Service) : ServiceTurn :=
  (timePhases Phase.startup.upcoming.length service).andThen fun service =>
    if service.handshakeDue then handle none .handshakeTimeout service else { service }

/-! Starting. -/

def accept (service : Service) : ServiceTurn :=
  match service.stage with
  | .running manager =>
    (handle none .accepted { service with
      readers := service.readers.insert (manager.lastKey + 1) {} }).andThen settle
  | _ => { service }

def readClient (key : ClientKey) (bytes : Bytes) (service : Service) : ServiceTurn :=
  match service.readers.get? key with
  | none => { service }
  | some reader =>
    let (events, next) := reader.feedClient bytes
    let readers := match next with
      | some next => service.readers.insert key next
      | none => service.readers.erase key
    (handleClient key events { service with readers }).andThen settle

def endClient (key : ClientKey) (service : Service) : ServiceTurn :=
  match service.readers.get? key with
  | none => { service }
  | some reader =>
    (handleClient key reader.endClient
      { service with readers := service.readers.erase key }).andThen settle

/-- Accept the connections that were made too early. -/
def acceptWaiting : List Waiting → Service → ServiceTurn
  | [], service => { service }
  | waiting :: rest, service =>
    (((accept service).andThen (readClient waiting.key waiting.bytes)).andThen fun service =>
      if waiting.ended then endClient waiting.key service else { service }).andThen
        (acceptWaiting rest)

def launch : ServiceTurn :=
  let manifests := Autostart.load service.tree service.options.autostartDirectories
  let session := { Session.new manifests service.seed.ids with
    name := service.options.name
    phaseTimeout := service.options.phaseTimeout }
  let manager : Manager := { session, handshakeTimeout := service.options.handshakeTimeout }
  ((({ service with waiting := [] }.adopt none (manager.start service.surroundings)).andThen
    settle).andThen (acceptWaiting service.waiting)).andThen
      (proceedAll service.controls.entries)

/-- Go on publishing the cookies. -/
def publish (lock : LockStage) : ServiceTurn :=
  let (tree, lock) := lock.advance service.authority service.clock service.tree
  match lock with
  | .asleep _ =>
    { service := { service with
        tree, stage := .starting lock (service.now + service.authority.interval) } }
  | .held =>
    let new := AuthorityEntry.ofSession service.networkId service.seed.connectionCookie
      service.seed.sessionCookie
    match service.authority.replaceAndRelease tree service.networkId new service.clock with
    | (tree, .ok ()) => launch { service with tree }
    | (tree, .error error) => fail { service with tree } (.authority error)
  | .failed error => fail { service with tree } (.authority error)
  | _ => { service := { service with tree } }

/-- Make the directory of the sockets and let nobody else in. -/
def prepareDirectory (tree : FileTree) (path : Path) : FileTree × Except HostError Unit :=
  match tree.makeDirectories path with
  | (tree, .error cause) => (tree, .error cause)
  | (tree, .ok ()) =>
    match tree.setMode path FileTree.privateMode with
    | .ok tree => (tree, .ok ())
    | .error cause => (tree, .error cause)

/-- Bring a service up. -/
def begin (seed : ServiceSeed) (options : ManagerOptions) (tree : FileTree) (now : Moment)
    (clock : Timestamp) : ServiceTurn :=
  let authorityFile := options.authorityFile.or seed.env.authorityFile
  let service : Service := {
    seed, options, tree, now, clock
    authority := { path := authorityFile.getD ⟨""⟩ }
    stage := .starting (.checking .created) now }
  let giveUp (tree : FileTree) (error : StartError) : ServiceTurn :=
    { service := { service with tree, stage := .ended (some error) } }
  match prepareDirectory tree options.runtimeDirectory with
  | (tree, .error cause) => giveUp tree (.runtimeDirectory options.runtimeDirectory cause)
  | (tree, .ok ()) =>
    match tree.bind service.clientSocket with
    | (tree, .error cause) => giveUp tree (.bind service.clientSocket cause)
    | (tree, .ok ()) =>
      match tree.bind service.controlSocket with
      | (tree, .error cause) =>
        giveUp ((tree.remove service.clientSocket).toOption.getD tree)
          (.bind service.controlSocket cause)
      | (tree, .ok ()) =>
        if authorityFile.isNone then fail { service with tree } (.authority .noLocation)
        else publish { service with tree } (.checking .created)

/-! What others do. -/

/-- Whether the service listens on its sockets. -/
def listening : Bool :=
  match service.stage with
  | .ended _ => false
  | _ => true

/-- Whether a path leads to one of the service's own sockets. -/
def listensAt (path own : Path) : Bool :=
  service.listening && match service.tree.reach path, service.tree.locate own with
    | .ok (some place), .ok ownPlace => place == ownPlace
    | _, _ => false

/-- A client connects to a socket. The connection has a key, unless the service does not
listen there. -/
def connect (socket : Path) : Option ClientKey × ServiceTurn :=
  if service.listensAt socket service.clientSocket then
    match service.stage with
    | .ended _ => (none, { service })
    | .running manager => (some (manager.lastKey + 1), accept service)
    | .starting .. =>
      let key := service.waiting.length + 1
      (some key, { service := { service with waiting := service.waiting ++ [{ key }] } })
    | .finishing manager .. =>
      let key := manager.lastKey + service.waiting.length + 1
      (some key, { service := { service with waiting := service.waiting ++ [{ key }] } })
  else (none, { service })

/-- Change what is known of a waiting connection. -/
def modifyWaiting (key : ClientKey) (change : Waiting → Waiting) : Service :=
  { service with
    waiting := service.waiting.map fun waiting =>
      if waiting.key = key then change waiting else waiting }

def receive (key : ClientKey) (bytes : Bytes) : ServiceTurn :=
  readClient key bytes
    (service.modifyWaiting key fun waiting => { waiting with bytes := waiting.bytes ++ bytes })

/-- A client has finished writing, or is gone. -/
def hangUp (key : ClientKey) : ServiceTurn :=
  endClient key (service.modifyWaiting key fun waiting => { waiting with ended := true })

/-- Someone connects to a socket for control requests. -/
def openControl (socket : Path) : Option Nat × Service :=
  if service.listensAt socket service.controlSocket then
    let number := service.lastControl + 1
    (some number, { service with
      lastControl := number, controls := service.controls.insert number {} })
  else (none, service)

/-- Bytes on a control connection. -/
def receiveControl (number : Nat) (bytes : Bytes) : ServiceTurn :=
  match service.controls.get? number with
  | none => { service }
  | some connection =>
    let (events, next) := connection.reader.feedControl bytes
    (proceed number connection (next.getD {}) events service).andThen settle

def hangUpControl (number : Nat) : ServiceTurn :=
  match service.controls.get? number with
  | none => { service }
  | some connection =>
    (proceed number connection {} connection.reader.endControl service).andThen settle

def processExited (pid : Pid) : ServiceTurn :=
  (handle none (.programExited pid) service).andThen settle

def signal : ServiceTurn := (handle none .signal service).andThen settle

def advance (milliseconds : Nat) : ServiceTurn :=
  let service := { service with now := service.now + milliseconds }
  match service.stage with
  | .starting lock wake =>
    if wake ≤ service.now then
      publish service (lock.step service.authority service.clock service.tree).2
    else { service }
  | .finishing manager lock wake =>
    if wake ≤ service.now then
      finish service manager (lock.step service.authority service.clock service.tree).2
    else { service }
  | _ => settle service

/-- One request on a control connection of its own, as the command line sends it. -/
def ask (socket : Path) (request : ControlRequest) :
    Except RemoteError (Option ControlResponse) × ServiceTurn :=
  match service.tree.reach socket, service.openControl socket with
  | .error cause, _ => (.error (.host cause), { service })
  | .ok _, (none, _) => (.ok none, { service })
  | .ok _, (some number, opened) =>
    let line := utf8 (Wire.encode request) ++ [lineFeed]
    let turn := (opened.receiveControl number line).andThen (·.hangUpControl number)
    (match (turn.answers number).head? with
      | some response => .ok (some response)
      | none => .error .noResponse, turn)

/-- Wait until a service is up or has failed; there are at most `left` waits. -/
def awaitStart : Nat → ServiceTurn → ServiceTurn
  | 0, turn => turn
  | left + 1, turn =>
    match turn.service.stage with
    | .starting _ wake => awaitStart left (turn.andThen fun s => s.advance (wake - s.now))
    | _ => turn

def beginAndWait (seed : ServiceSeed) (options : ManagerOptions) (tree : FileTree) (now : Moment)
    (clock : Timestamp) : ServiceTurn :=
  let turn := begin seed options tree now clock
  awaitStart turn.service.authority.attempts turn

/-- Run an invocation beside a service: what it shows, or why it failed. A session of its own
that cannot be started leaves its traces in the files; one that can shows nothing. -/
def invoke (invocation : Invocation) : Except String String × ServiceTurn :=
  match Settings.load service.seed.env service.tree invocation.config with
  | .error error => (.error error.message, { service })
  | .ok settings =>
    match Remote.target? invocation settings service.seed.env with
    | some (socket, request) =>
      let (reply, turn) := service.ask socket request
      (Remote.outcome socket reply, turn)
    | none =>
      let options := (settings.override invocation.overrides).options service.seed.env
      let second := (begin service.seed options service.tree service.now service.clock).service
      match second.stage with
      | .ended (some error) =>
        (.error error.report, { service := { service with tree := second.tree } })
      | _ => (.ok "", { service })

end Service

/-- The options of a session manager that an invocation starts. -/
def Invocation.options (invocation : Invocation) (env : Environment) (tree : FileTree) :
    Except SettingsError ManagerOptions :=
  (Settings.load env tree invocation.config).map fun settings =>
    (settings.override invocation.overrides).options env

end Xsmp
