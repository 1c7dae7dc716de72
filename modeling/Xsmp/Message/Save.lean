import Xsmp.Json.Record

/-!
# Saves and interaction

What a request to save is about, and how much a client may talk to the user
while it saves.
-/

namespace Xsmp

inductive SaveType where
  /-- The client's own state. -/
  | «local»
  /-- The user's data, to permanent storage. -/
  | global
  | both
  deriving DecidableEq

/-- How much a client may interact with the user while it saves. -/
inductive InteractStyle where
  | none
  | errors
  | any
  deriving DecidableEq

namespace SaveType

def name : SaveType → String
  | .local => "local"
  | .global => "global"
  | .both => "both"

def ofName? : String → Option SaveType
  | "local" => some .local
  | "global" => some .global
  | "both" => some .both
  | _ => none

def toJson (type : SaveType) : Json := .str type.name

def ofJson? (json : Json) : Option SaveType := (json.word? true).bind ofName?

end SaveType

namespace InteractStyle

def name : InteractStyle → String
  | .none => "none"
  | .errors => "errors"
  | .any => "any"

def ofName? : String → Option InteractStyle
  | "none" => some .none
  | "errors" => some .errors
  | "any" => some .any
  | _ => Option.none

def toJson (style : InteractStyle) : Json := .str style.name

def ofJson? (json : Json) : Option InteractStyle := (json.word? true).bind ofName?

end InteractStyle

end Xsmp
