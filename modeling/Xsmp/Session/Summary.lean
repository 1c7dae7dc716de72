import Xsmp.Session.Basic
import Xsmp.Text.Quoted

/-!
# Sessions in logs

How a log shows a session and a refused registration: the name of what is
shown, and its parts in braces.
-/

namespace Xsmp

/-- A name with its parts in braces. -/
def braced (name : String) (parts : List String) : String :=
  name ++ " \x7b " ++ ", ".intercalate parts ++ " \x7d"

namespace Phase

def logName : Phase → String
  | .startup => "Startup"
  | .initialization => "Initialization"
  | .windowManager => "WindowManager"
  | .panel => "Panel"
  | .desktop => "Desktop"
  | .application => "Application"
  | .running => "Running"
  | .shutdown => "Shutdown"

end Phase

namespace SessionError

/-- An error in a log. -/
def log : SessionError → String
  | .notShuttingDown => "NotShuttingDown"
  | .shuttingDown => "ShuttingDown"
  | .duplicateClientId id => "DuplicateClientId(" ++ Text.quoted id ++ ")"
  | .unknownClient key => "UnknownClient(ClientKey(" ++ toString key ++ "))"

/-- The refused registration of a client in a log. -/
def logRefusal (error : SessionError) (client : String) : String :=
  braced "Rejected" ["client: " ++ Text.quoted client, "error: " ++ error.log]

end SessionError

namespace Session

/-- A session in a log. Its parts are not all of it. -/
def log (session : Session) : String :=
  let name := match session.name with
    | some name => "Some(" ++ Text.quoted name ++ ")"
    | none => "None"
  braced "Session" ["name: " ++ name, "phase: " ++ session.phase.logName,
    "clients: " ++ toString session.clients.size,
    "pending_apps: " ++ toString session.pending.length, ".."]

end Session

end Xsmp
