import Xsmp.Manager.Service
import Xsmp.Settings.CommandLine

/-!
# The program

The outermost layer: arguments, environment variables, the configuration file and
the standard streams. Connecting the streams is left to whoever starts the program.
A command for a running session writes its request to standard output, reads the
answer from standard input and shows it on standard error; `run` serves one client on
standard input and output. Deadlines are looked at whenever a line arrives.
-/

namespace Xsmp

/-- What is shown to someone who asks for help. -/
def usageText : String :=
  "XSMP session manager\n\nUsage: gsm [OPTIONS] <COMMAND>\n\n"
    ++ "Commands: run, status, logout, cancel-logout, checkpoint, help\n\n"
    ++ "Options: -v, --runtime-dir <DIR>, --config <FILE>, --help, --version\n"
    ++ "Options of run: --name <NAME>, --autostart-dir <DIR>, --phase-timeout <SECS>, "
    ++ "--handshake-timeout <SECS>\n"

def versionText : String := "gsm 0.1.0\n"

def UsageError.message : UsageError → String
  | .unknownArgument => "unexpected argument"
  | .unknownCommand => "unrecognized subcommand"
  | .missingValue => "a value is required"
  | .invalidNumber => "invalid number"
  | .unexpectedValue => "unexpected value"
  | .repeatedOption => "an option cannot be used multiple times"
  | .missingCommand | .nothingGiven => "a subcommand is required"
  | .help | .version => ""

namespace Program

def pathVariable (name : String) : IO (Option Path) := do
  return (← IO.getEnv name).map Path.mk

def environment : IO Environment := do
  return {
    home := ← pathVariable "HOME"
    configHome := ← pathVariable "XDG_CONFIG_HOME"
    runtimeHome := ← pathVariable "XDG_RUNTIME_DIR"
    authority := ← pathVariable "ICEAUTHORITY"
    temporary := ← pathVariable "TMPDIR"
    user := (((← IO.getEnv "UID").bind fun s => Text.natural? s.toList).getD 0)
    host := (← IO.getEnv "HOSTNAME").getD "localhost" }

/-- A tree that holds the configuration file, if there is one. -/
def settingsTree (path : Option Path) : IO FileTree := do
  match path with
  | none => return {}
  | some path =>
    try
      let contents ← IO.FS.readBinFile path.text
      return FileTree.plantAll {} [(path, some contents.toList)] 0
    catch _ => return {}

/-- Tell why the program failed. -/
def fail (reason : String) : IO UInt32 := do
  IO.eprintln reason
  return 1

/-- Send a request and show its answer. -/
def ask (socket : Path) (request : ControlRequest) : IO UInt32 := do
  IO.println (Wire.encode request)
  (← IO.getStdout).flush
  let line ← (← IO.getStdin).getLine
  match Remote.outcome socket ((Remote.response (utf8 line)).map some) with
  | .ok shown =>
    IO.eprint shown
    return 0
  | .error reason => fail reason

/-- Write what a client is told. -/
def deliver (turn : ServiceTurn) : IO Service := do
  for action in turn.actions do
    match action with
    | .sent _ message => IO.println (Wire.encode message)
    | _ => pure ()
  (← IO.getStdout).flush
  return turn.service

/-- Serve a client until the session is over or the client has gone. -/
partial def serve (key : ClientKey) (started : Nat) (service : Service) : IO Unit := do
  if !service.listening then return
  let line ← (← IO.getStdin).getLine
  let elapsed := (← IO.monoMsNow) - started - service.now
  let service ← deliver ({ service with clock := ← IO.monoNanosNow }.advance elapsed)
  if line.isEmpty then discard (deliver (service.hangUp key))
  else serve key started (← deliver (service.receive key (utf8 line)))

/-- Run a session with the client on the standard streams. The client needs no socket and
no cookie, so the files of the session stay in memory. -/
def run (env : Environment) (options : ManagerOptions) : IO UInt32 := do
  let cookie : IO Cookie := return (← IO.getRandomBytes (.ofNat 16)).toList
  let number : IO UInt32 := return .ofNat (← IO.rand 0 0xffffffff)
  let seed : ServiceSeed := {
    env, programs := []
    ids := .ofSeeds (← number) (← number) (← number)
    connectionCookie := ← cookie
    sessionCookie := ← cookie }
  let authority := (options.authorityFile.or env.authorityFile).toList
  let tree := FileTree.plantAll {} (authority.map fun path => (path.parent, none)) 0
  let started ← IO.monoMsNow
  let service ← deliver (Service.beginAndWait seed options tree 0 (← IO.monoNanosNow))
  match service.stage with
  | .ended (some error) => fail error.report
  | _ =>
    match service.connect service.clientSocket with
    | (some key, turn) => serve key started (← deliver turn)
    | (none, _) => pure ()
    return 0

/-- Do what a command line asks for. The result is the exit status. -/
def execute (arguments : List String) : IO UInt32 := do
  match Invocation.parse arguments with
  | .error .help => IO.print usageText; return 0
  | .error .version => IO.print versionText; return 0
  | .error error =>
    IO.eprint ("error: " ++ error.message ++ "\n\n" ++ usageText)
    return 2
  | .ok invocation =>
    let env ← environment
    let tree ← settingsTree (invocation.config.or env.settingsFile)
    match Settings.load env tree invocation.config with
    | .error error => fail error.message
    | .ok settings =>
      match Remote.target? invocation settings env with
      | some (socket, request) => ask socket request
      | none => run env ((settings.override invocation.overrides).options env)

end Program

end Xsmp

def main (arguments : List String) : IO UInt32 := Xsmp.Program.execute arguments
