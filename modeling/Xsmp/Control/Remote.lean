import Xsmp.Control.Message
import Xsmp.Connection.Line
import Xsmp.Host.Error
import Xsmp.Settings.CommandLine

/-!
# Remote control

The command line sends one request to the session that runs in a directory and
shows what it answers. That no session runs there is not an error of the
connection.
-/

namespace Xsmp

/-- Why a request has no answer. -/
inductive RemoteError where
  /-- The connection was closed. -/
  | noResponse
  /-- The answer cannot be understood. -/
  | misunderstood
  /-- The answer is no text. -/
  | notText (fault : Utf8.Fault)
  | host (cause : HostError)
  deriving DecidableEq

namespace RemoteError

def message : RemoteError → String
  | .noResponse => "control socket closed without a response"
  | .misunderstood => "malformed message"
  | .notText { index, length := some length } =>
    "invalid utf-8 sequence of " ++ toString length ++ " bytes from index " ++ toString index
  | .notText { index, length := none } =>
    "incomplete utf-8 byte sequence from index " ++ toString index
  | .host cause => cause.message

end RemoteError

namespace Remote

/-- The answer in the bytes that came back. Only the first line counts, with its line
feed. -/
def response (bytes : Bytes) : Except RemoteError ControlResponse :=
  let line := bytes.take ((bytes.takeWhile (· != lineFeed)).length + 1)
  if bytes.isEmpty then throw .noResponse
  else match Utf8.fault? line, Utf8.decode? line with
    | none, some text =>
      match Wire.decode? (String.ofList (Text.trimEnd text.toList)) with
      | some response => pure response
      | none => throw .misunderstood
    | some fault, _ => throw (.notText fault)
    | none, none => throw .misunderstood

/-- The request that an action of the command line sends. -/
def request? : Action → Option ControlRequest
  | .run => none
  | .status => some .status
  | .logout => some .logout
  | .cancelLogout => some .cancelLogout
  | .checkpoint => some .checkpoint

def clientLine (client : ClientSummary) : String :=
  "  " ++ client.clientId
    ++ ((client.pid.map fun pid => " pid " ++ toString pid.toNat).getD "")
    ++ "  " ++ client.description ++ "\n"

/-- What is shown of an answer, or why the command failed. -/
def report : ControlResponse → Except String String
  | .status name phase clients =>
    .ok ("session: " ++ name.getD "unnamed" ++ " (" ++ phase ++ ")\n"
      ++ String.join (clients.map clientLine))
  | .ok | .pong => .ok ""
  | .error code message =>
    .error ("session manager refused (" ++ code ++ "): " ++ message)

/-- What is shown when a request to a socket was answered, found nobody, or failed. -/
def outcome (socket : Path) : Except RemoteError (Option ControlResponse) → Except String String
  | .ok (some response) => report response
  | .ok none => .error ("no session manager is running (looked for " ++ socket.text ++ ")")
  | .error error => .error ("failed to talk to " ++ socket.text ++ ": " ++ error.message)

/-- Where an invocation sends its request, and the request. -/
def target? (invocation : Invocation) (settings : Settings) (env : Environment) :
    Option (Path × ControlRequest) :=
  (request? invocation.action).map fun request =>
    (controlSocket (invocation.sockets settings env), request)

end Remote

end Xsmp
