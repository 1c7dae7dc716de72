import Xsmp.Json.Record

/-!
# Client properties

A client describes itself to the session by named properties. Each value has
one of three types of the protocol: a small number, a text, or a list of texts.
A handful of names has a meaning to the session manager.
-/

namespace Xsmp

inductive PropertyValue where
  | card8 (value : UInt8)
  | array8 (value : String)
  | listOfArray8 (values : List String)
  deriving DecidableEq

structure Property where
  name : String
  value : PropertyValue
  deriving DecidableEq

/-- When a client wants to be started again. -/
inductive RestartStyle where
  /-- In the next session, if it is running at the end of this one. -/
  | ifRunning
  /-- In the next session. -/
  | anyway
  /-- As soon as it exits. -/
  | immediately
  | never
  deriving DecidableEq

namespace RestartStyle

/-- The number that stands for a style in a property. -/
def toCard8 : RestartStyle → UInt8
  | .ifRunning => 0
  | .anyway => 1
  | .immediately => 2
  | .never => 3

def name : RestartStyle → String
  | .ifRunning => "IfRunning"
  | .anyway => "Anyway"
  | .immediately => "Immediately"
  | .never => "Never"

def ofCard8? (value : UInt8) : Option RestartStyle :=
  if value = 0 then some .ifRunning
  else if value = 1 then some .anyway
  else if value = 2 then some .immediately
  else if value = 3 then some .never
  else none

theorem ofCard8?_toCard8 (style : RestartStyle) : ofCard8? style.toCard8 = some style := by
  cases style <;> rfl

end RestartStyle

namespace Property

/-! Names with a meaning of their own. -/

def programName : String := "Program"

/-- The process number of the client, in decimal. -/
def processIdName : String := "ProcessID"

/-- The command that starts the client again in its present state. -/
def restartCommandName : String := "RestartCommand"

/-- The command that throws the client's saved state away. -/
def discardCommandName : String := "DiscardCommand"

/-- The number of a `RestartStyle`. -/
def restartStyleName : String := "RestartStyleHint"

def desktopFileName : String := "_GSM_DesktopFile"

end Property

namespace PropertyValue

def toJson : PropertyValue → Json
  | .card8 n => .obj [("type", .str "CARD8"), ("value", .int n.toNat)]
  | .array8 s => .obj [("type", .str "ARRAY8"), ("value", .str s)]
  | .listOfArray8 ss => .obj [("type", .str "LISTofARRAY8"), ("value", Json.ofTexts ss)]

/-- The names of the types, in the order of their numbers. -/
def typeNames : List String := ["CARD8", "ARRAY8", "LISTofARRAY8"]

/-- The name of the type in front of a list. Inside a message its number serves as well. -/
def listedType? (inMessage : Bool) : Json → Option String
  | .str name => some name
  | .int (.ofNat number) => if inMessage then typeNames[number]? else none
  | _ => none

/-- How the type of a value is written, which depends on whether the value is a list or
an object. -/
def type? (inMessage : Bool) : Json → Json → Option String
  | .arr _ => listedType? inMessage
  | _ => Json.word? inMessage

def ofJson? (inMessage : Bool) (json : Json) : Option PropertyValue := do
  let field ← json.record? ["type", "value"]
  let type ← (field "type").required (type? inMessage json)
  let value := field "value"
  match type with
  | "CARD8" => return .card8 (.ofNat (← value.required (Json.natural? 255)))
  | "ARRAY8" => return .array8 (← value.required Json.text?)
  | "LISTofARRAY8" => return .listOfArray8 (← value.required (Json.list? Json.text?))
  | _ => none

end PropertyValue

namespace Property

def toJson (property : Property) : Json :=
  .obj [("name", .str property.name), ("value", property.value.toJson)]

def ofJson? (inMessage : Bool) (json : Json) : Option Property := do
  let field ← json.record? ["name", "value"]
  return {
    name := ← (field "name").required Json.text?
    value := ← (field "value").required (PropertyValue.ofJson? inMessage) }

/-- The property that a text of its own stands for. Here members that no field asks
for are passed over unread. -/
def decode? (text : String) : Option Property :=
  (Json.parseLenient? text).bind (ofJson? false)

end Property

instance : Wire Property := ⟨Property.toJson, Property.ofJson? true⟩

end Xsmp
