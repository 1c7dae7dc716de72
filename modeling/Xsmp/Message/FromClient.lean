import Xsmp.Message.Save
import Xsmp.Property.Basic

/-!
# Messages from a client

A client opens with its registration. After that it answers requests to save,
asks for a turn with the user, declares properties, or asks the session for a
save or a logout of its own.
-/

namespace Xsmp

inductive ClientMessage where
  /-- The first message on every connection. -/
  | registerClient (previousId : Option String)
  | interactRequest (dialogType : InteractStyle)
  | interactDone (cancelShutdown : Bool)
  | saveYourselfRequest (saveType : SaveType) (shutdown : Bool) (interactStyle : InteractStyle)
      (fast : Bool) (isGlobal : Bool)
  | saveYourselfPhase2Request
  | saveYourselfDone (success : Bool)
  | closeConnection (reasons : List String)
  | setProperties (properties : List Property)
  | deleteProperties (names : List String)
  | getProperties
  deriving DecidableEq

namespace ClientMessage

def name : ClientMessage → String
  | .registerClient .. => "RegisterClient"
  | .interactRequest .. => "InteractRequest"
  | .interactDone .. => "InteractDone"
  | .saveYourselfRequest .. => "SaveYourselfRequest"
  | .saveYourselfPhase2Request => "SaveYourselfPhase2Request"
  | .saveYourselfDone .. => "SaveYourselfDone"
  | .closeConnection .. => "CloseConnection"
  | .setProperties .. => "SetProperties"
  | .deleteProperties .. => "DeleteProperties"
  | .getProperties => "GetProperties"

def toJson : ClientMessage → Json
  | .registerClient previousId =>
    .tagged "register_client" [("previous_id", .ofText? previousId)]
  | .interactRequest dialogType =>
    .tagged "interact_request" [("dialog_type", dialogType.toJson)]
  | .interactDone cancelShutdown =>
    .tagged "interact_done" [("cancel_shutdown", .bool cancelShutdown)]
  | .saveYourselfRequest saveType shutdown interactStyle fast isGlobal =>
    .tagged "save_yourself_request"
      [("save_type", saveType.toJson), ("shutdown", .bool shutdown),
        ("interact_style", interactStyle.toJson), ("fast", .bool fast), ("global", .bool isGlobal)]
  | .saveYourselfPhase2Request => .tagged "save_yourself_phase2_request" []
  | .saveYourselfDone success => .tagged "save_yourself_done" [("success", .bool success)]
  | .closeConnection reasons => .tagged "close_connection" [("reasons", .ofTexts reasons)]
  | .setProperties properties =>
    .tagged "set_properties" [("properties", .arr (properties.map Property.toJson))]
  | .deleteProperties names => .tagged "delete_properties" [("names", .ofTexts names)]
  | .getProperties => .tagged "get_properties" []

def ofJson? (json : Json) : Option ClientMessage := do
  let (tag, body) ← json.tagged?
  match tag with
  | "register_client" =>
    let field ← body.record? ["previous_id"]
    return .registerClient (← (field "previous_id").withDefault none (Json.nullable Json.text?))
  | "interact_request" =>
    let field ← body.record? ["dialog_type"]
    return .interactRequest (← (field "dialog_type").withDefault .none InteractStyle.ofJson?)
  | "interact_done" =>
    let field ← body.record? ["cancel_shutdown"]
    return .interactDone (← (field "cancel_shutdown").required Json.flag?)
  | "save_yourself_request" =>
    let field ← body.record? ["save_type", "shutdown", "interact_style", "fast", "global"]
    return .saveYourselfRequest
      (← (field "save_type").required SaveType.ofJson?)
      (← (field "shutdown").required Json.flag?)
      (← (field "interact_style").withDefault .none InteractStyle.ofJson?)
      (← (field "fast").withDefault false Json.flag?)
      (← (field "global").withDefault false Json.flag?)
  | "save_yourself_phase2_request" =>
    let _ ← body.record? []
    return .saveYourselfPhase2Request
  | "save_yourself_done" =>
    let field ← body.record? ["success"]
    return .saveYourselfDone (← (field "success").required Json.flag?)
  | "close_connection" =>
    let field ← body.record? ["reasons"]
    return .closeConnection (← (field "reasons").withDefault [] (Json.list? Json.text?))
  | "set_properties" =>
    let field ← body.record? ["properties"]
    return .setProperties (← (field "properties").required (Json.list? (Property.ofJson? true)))
  | "delete_properties" =>
    let field ← body.record? ["names"]
    return .deleteProperties (← (field "names").required (Json.list? Json.text?))
  | "get_properties" =>
    let _ ← body.record? []
    return .getProperties
  | _ => none

end ClientMessage

instance : Wire ClientMessage := ⟨ClientMessage.toJson, ClientMessage.ofJson?⟩

end Xsmp
