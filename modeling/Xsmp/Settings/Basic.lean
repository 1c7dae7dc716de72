import Xsmp.Host.FileTree
import Xsmp.Json.Record
import Xsmp.Settings.Locations

/-!
# Settings

The settings of a session come from three places: flags of the command line,
the configuration file, and defaults that depend on the environment. Each
setting is taken from the first place that gives it.
-/

namespace Xsmp

/-- What a configuration file says, with the defaults in place of what it leaves out. -/
structure Settings where
  name : Option String
  /-- The autostart directories, the most important one first. -/
  autostartDirectories : List Path
  /-- How long a startup phase waits for its programs, in seconds. -/
  phaseTimeout : Nat
  /-- How long a connection may take to register, in seconds. -/
  handshakeTimeout : Nat
  runtimeDirectory : Option Path
  authorityFile : Option Path
  deriving DecidableEq

/-- What the command line says. -/
structure Overrides where
  name : Option String := none
  autostartDirectories : List Path := []
  phaseTimeout : Option Nat := none
  handshakeTimeout : Option Nat := none
  runtimeDirectory : Option Path := none
  deriving DecidableEq

/-- What a session manager is started with. -/
structure ManagerOptions where
  name : Option String
  runtimeDirectory : Path
  autostartDirectories : List Path
  /-- How long a startup phase waits for its programs, in milliseconds. -/
  phaseTimeout : Nat
  /-- How long a connection may take to register, in milliseconds. -/
  handshakeTimeout : Nat
  authorityFile : Option Path
  deriving DecidableEq

inductive SettingsError where
  | unreadable (path : Path) (cause : HostError)
  | invalid (path : Path)
  deriving DecidableEq

namespace SettingsError

def message : SettingsError → String
  | .unreadable path cause => "failed to read " ++ path.text ++ ": " ++ cause.message
  | .invalid path => "invalid configuration in " ++ path.text

end SettingsError

namespace Settings

/-- The settings without a configuration file. -/
def default (env : Environment) : Settings where
  name := none
  autostartDirectories := env.autostartDirectories
  phaseTimeout := 10
  handshakeTimeout := 5
  runtimeDirectory := none
  authorityFile := none

def path? (json : Json) : Option Path := json.text?.map Path.mk

def ofJson? (env : Environment) (json : Json) : Option Settings := do
  let fields ← json.record? ["name", "autostart_dirs", "phase_timeout_secs",
    "handshake_timeout_secs", "runtime_dir", "authority_file"]
  let field {α : Type} (name : String) (default : α) (read : Json → Option α) : Option α :=
    (fields name).withDefault default read
  let seconds := Json.natural? Json.maxUnsigned
  return {
    name := ← field "name" none (Json.nullable Json.text?)
    autostartDirectories :=
      ← field "autostart_dirs" (default env).autostartDirectories (Json.list? path?)
    phaseTimeout := ← field "phase_timeout_secs" (default env).phaseTimeout seconds
    handshakeTimeout := ← field "handshake_timeout_secs" (default env).handshakeTimeout seconds
    runtimeDirectory := ← field "runtime_dir" none (Json.nullable path?)
    authorityFile := ← field "authority_file" none (Json.nullable path?) }

def toJson (settings : Settings) : Json :=
  .obj [("name", .ofText? settings.name),
    ("autostart_dirs", .ofTexts (settings.autostartDirectories.map Path.text)),
    ("phase_timeout_secs", .int settings.phaseTimeout),
    ("handshake_timeout_secs", .int settings.handshakeTimeout),
    ("runtime_dir", .ofText? (settings.runtimeDirectory.map Path.text)),
    ("authority_file", .ofText? (settings.authorityFile.map Path.text))]

def loadFile (env : Environment) (tree : FileTree) (path : Path) : Except SettingsError Settings :=
  match tree.readText path with
  | .error cause => .error (.unreadable path cause)
  | .ok contents =>
    match (Json.parseLenient? contents).bind (ofJson? env) with
    | some settings => .ok settings
    | none => .error (.invalid path)

/-- The settings in the given file, or in the user's own if there is one. -/
def load (env : Environment) (tree : FileTree) (given : Option Path) :
    Except SettingsError Settings :=
  match given with
  | some path => loadFile env tree path
  | none =>
    match env.settingsFile.filter tree.holds with
    | some path => loadFile env tree path
    | none => .ok (default env)

/-- The settings with those of the command line in their places. -/
def override (settings : Settings) (flags : Overrides) : Settings where
  name := flags.name.or settings.name
  autostartDirectories :=
    if flags.autostartDirectories.isEmpty then settings.autostartDirectories
    else flags.autostartDirectories
  phaseTimeout := flags.phaseTimeout.getD settings.phaseTimeout
  handshakeTimeout := flags.handshakeTimeout.getD settings.handshakeTimeout
  runtimeDirectory := flags.runtimeDirectory.or settings.runtimeDirectory
  authorityFile := settings.authorityFile

def sockets (settings : Settings) (env : Environment) : Path :=
  settings.runtimeDirectory.getD env.runtimeDirectory

/-- What a session manager is started with under these settings. -/
def options (settings : Settings) (env : Environment) : ManagerOptions where
  name := settings.name
  runtimeDirectory := settings.sockets env
  autostartDirectories := settings.autostartDirectories
  phaseTimeout := settings.phaseTimeout * 1000
  handshakeTimeout := settings.handshakeTimeout * 1000
  authorityFile := settings.authorityFile

end Settings

end Xsmp
