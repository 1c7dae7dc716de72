import Xsmp.Host.Path

/-!
# Where things are

The environment tells where a user keeps configuration, sockets and the
authority file. A variable for a base directory counts only if it is an
absolute path.
-/

namespace Xsmp

/-- The part of the environment that tells where things are. -/
structure Environment where
  home : Option Path
  configHome : Option Path := none
  runtimeHome : Option Path := none
  authority : Option Path := none
  temporary : Option Path := none
  user : Nat := 0
  host : String := "localhost"

namespace Environment

variable (env : Environment)

/-- The directory for the user's configuration. -/
def configDirectory : Option Path :=
  (env.configHome.filter Path.isAbsolute).or (env.home.map (·.entry ".config"))

/-- The directory of the sockets, unless another one is given. -/
def runtimeDirectory : Path :=
  match env.runtimeHome.filter Path.isAbsolute with
  | some directory => directory.entry "gsm"
  | none => (env.temporary.getD ⟨"/tmp"⟩).entry ("gsm-" ++ toString env.user)

/-- The autostart directories, unless others are given: the user's, then the system's. -/
def autostartDirectories : List Path :=
  (env.configDirectory.map (·.entry "autostart")).toList ++ [⟨"/etc/xdg/autostart"⟩]

/-- The configuration file that is read unless another one is given. -/
def settingsFile : Option Path :=
  env.configDirectory.map fun directory => (directory.entry "gsm").entry "session.json"

/-- The authority file, unless another one is given. -/
def authorityFile : Option Path :=
  (env.authority.filter (!·.text.isEmpty)).or (env.home.map (·.entry ".ICEauthority"))

end Environment

/-- The socket for clients in a runtime directory. -/
def clientSocket (runtimeDirectory : Path) : Path := runtimeDirectory.entry "xsmp.sock"

/-- The socket for control requests in a runtime directory. -/
def controlSocket (runtimeDirectory : Path) : Path := runtimeDirectory.entry "control.sock"

/-- The network id under which clients find a socket. -/
def networkId (host : String) (socket : Path) : String := "local/" ++ host ++ ":" ++ socket.text

end Xsmp
