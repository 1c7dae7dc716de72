import Xsmp.Message.Save
import Xsmp.Property.Basic

/-!
# Messages from the session manager

The manager answers a registration, asks a client to save, gives it a turn with
the user, and tells it how a logout went on.
-/

namespace Xsmp

/-- A message that the session manager sends to a client. -/
inductive ManagerMessage where
  | registerClientReply (clientId : String)
  /-- The registration was refused; the connection is closed afterwards. -/
  | registrationRefused (reason : String)
  | saveYourself (saveType : SaveType) (shutdown : Bool) (interactStyle : InteractStyle) (fast : Bool)
  | saveYourselfPhase2
  | interact
  | saveComplete
  | shutdownCancelled
  | die
  | propertiesReply (properties : List Property)
  deriving DecidableEq

namespace ManagerMessage

def toJson : ManagerMessage → Json
  | .registerClientReply clientId => .tagged "register_client_reply" [("client_id", .str clientId)]
  | .registrationRefused reason => .tagged "registration_refused" [("reason", .str reason)]
  | .saveYourself saveType shutdown interactStyle fast =>
    .tagged "save_yourself"
      [("save_type", saveType.toJson), ("shutdown", .bool shutdown),
        ("interact_style", interactStyle.toJson), ("fast", .bool fast)]
  | .saveYourselfPhase2 => .tagged "save_yourself_phase2" []
  | .interact => .tagged "interact" []
  | .saveComplete => .tagged "save_complete" []
  | .shutdownCancelled => .tagged "shutdown_cancelled" []
  | .die => .tagged "die" []
  | .propertiesReply properties =>
    .tagged "properties_reply" [("properties", .arr (properties.map Property.toJson))]

def ofJson? (json : Json) : Option ManagerMessage := do
  let (tag, body) ← json.tagged?
  match tag with
  | "register_client_reply" =>
    let field ← body.record? ["client_id"]
    return .registerClientReply (← (field "client_id").required Json.text?)
  | "registration_refused" =>
    let field ← body.record? ["reason"]
    return .registrationRefused (← (field "reason").required Json.text?)
  | "save_yourself" =>
    let field ← body.record? ["save_type", "shutdown", "interact_style", "fast"]
    return .saveYourself
      (← (field "save_type").required SaveType.ofJson?)
      (← (field "shutdown").required Json.flag?)
      (← (field "interact_style").required InteractStyle.ofJson?)
      (← (field "fast").required Json.flag?)
  | "save_yourself_phase2" =>
    let _ ← body.record? []
    return .saveYourselfPhase2
  | "interact" =>
    let _ ← body.record? []
    return .interact
  | "save_complete" =>
    let _ ← body.record? []
    return .saveComplete
  | "shutdown_cancelled" =>
    let _ ← body.record? []
    return .shutdownCancelled
  | "die" =>
    let _ ← body.record? []
    return .die
  | "properties_reply" =>
    let field ← body.record? ["properties"]
    return .propertiesReply (← (field "properties").required (Json.list? (Property.ofJson? true)))
  | _ => none

end ManagerMessage

instance : Wire ManagerMessage := ⟨ManagerMessage.toJson, ManagerMessage.ofJson?⟩

end Xsmp
