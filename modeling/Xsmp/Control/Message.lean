import Xsmp.Json.Record

/-!
# Control messages

The command line talks to a running session over a socket of its own, one
request and one response per line.
-/

namespace Xsmp

/-- What the command line asks of a running session. -/
inductive ControlRequest where
  | ping
  | status
  | logout
  | cancelLogout
  | checkpoint
  deriving DecidableEq

structure ClientSummary where
  clientId : String
  description : String
  pid : Option UInt32
  deriving DecidableEq

/-- What a running session answers. -/
inductive ControlResponse where
  | pong
  | status (name : Option String) (phase : String) (clients : List ClientSummary)
  | ok
  | error (code message : String)
  deriving DecidableEq

namespace ControlRequest

def name : ControlRequest → String
  | .ping => "ping"
  | .status => "status"
  | .logout => "logout"
  | .cancelLogout => "cancel_logout"
  | .checkpoint => "checkpoint"

def ofName? : String → Option ControlRequest
  | "ping" => some .ping
  | "status" => some .status
  | "logout" => some .logout
  | "cancel_logout" => some .cancelLogout
  | "checkpoint" => some .checkpoint
  | _ => none

def toJson (request : ControlRequest) : Json := .tagged request.name []

def ofJson? (json : Json) : Option ControlRequest := do
  let (tag, body) ← json.tagged?
  let _ ← body.record? []
  ofName? tag

end ControlRequest

namespace ClientSummary

def toJson (client : ClientSummary) : Json :=
  .obj [("client_id", .str client.clientId), ("description", .str client.description),
    ("pid", .ofNat? (client.pid.map UInt32.toNat))]

def ofJson? (json : Json) : Option ClientSummary := do
  let field ← json.record? ["client_id", "description", "pid"]
  return {
    clientId := ← (field "client_id").required Json.text?
    description := ← (field "description").required Json.text?
    pid := (← (field "pid").optional (Json.natural? (UInt32.size - 1))).map UInt32.ofNat }

end ClientSummary

namespace ControlResponse

def toJson : ControlResponse → Json
  | .pong => .tagged "pong" []
  | .status name phase clients =>
    .tagged "status" [("name", .ofText? name), ("phase", .str phase),
      ("clients", .arr (clients.map ClientSummary.toJson))]
  | .ok => .tagged "ok" []
  | .error code message => .tagged "error" [("code", .str code), ("message", .str message)]

def ofJson? (json : Json) : Option ControlResponse := do
  let (tag, body) ← json.tagged?
  match tag with
  | "pong" =>
    let _ ← body.record? []
    return .pong
  | "status" =>
    let field ← body.record? ["name", "phase", "clients"]
    return .status
      (← (field "name").optional Json.text?)
      (← (field "phase").required Json.text?)
      (← (field "clients").required (Json.list? ClientSummary.ofJson?))
  | "ok" =>
    let _ ← body.record? []
    return .ok
  | "error" =>
    let field ← body.record? ["code", "message"]
    return .error (← (field "code").required Json.text?) (← (field "message").required Json.text?)
  | _ => none

end ControlResponse

instance : Wire ControlRequest := ⟨ControlRequest.toJson, ControlRequest.ofJson?⟩

instance : Wire ControlResponse := ⟨ControlResponse.toJson, ControlResponse.ofJson?⟩

end Xsmp
