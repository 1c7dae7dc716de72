import Xsmp.Json.Printer
import Xsmp.Json.Reader

/-!
# Records in JSON

A record is an object whose members may stand in any order, or a list of the
field values in the order of declaration. An object may hold members that no
field asks for, but a field given twice is an error; a list may stop early when
the remaining fields have a default, and holds nothing beyond the last field.

A message is a record with a tag: the member `type` of the object, or the first
item of the list.
-/

namespace Xsmp.Json

/-- How a record gives one of its fields. -/
inductive Field where
  | given (value : Json)
  /-- The object has no member of that name. -/
  | omitted
  /-- The list is too short. -/
  | ended

def Field.required {α : Type} (read : Json → Option α) : Field → Option α
  | .given value => read value
  | _ => none

/-- A field that takes `default` when it is not given. -/
def Field.withDefault {α : Type} (default : α) (read : Json → Option α) : Field → Option α
  | .given value => read value
  | _ => some default

/-- A value that may be `null`. -/
def nullable {α : Type} (read : Json → Option α) : Json → Option (Option α)
  | .null => some none
  | value => (read value).map some

/-- A field that an object may leave out and that may be `null`. -/
def Field.optional {α : Type} (read : Json → Option α) : Field → Option (Option α)
  | .given value => nullable read value
  | .omitted => some none
  | .ended => none

/-- The fields of a record with the given names, by name. -/
def record? (names : List String) : Json → Option (String → Field)
  | .obj members =>
    if names.any fun name => 1 < members.countP (·.1 == name) then none
    else some fun name => match members.lookup name with
      | some value => .given value
      | none => .omitted
  | .arr items =>
    if names.length < items.length then none
    else some fun name => match (names.zip items).lookup name with
      | some value => .given value
      | none => .ended
  | _ => none

/-- The tag of a message and the record that is left without it. -/
def tagged? : Json → Option (String × Json)
  | .obj members =>
    match members.filter (·.1 == "type") with
    | [(_, .str tag)] => some (tag, .obj (members.filter (·.1 != "type")))
    | _ => none
  | .arr (.str tag :: items) => some (tag, .arr items)
  | _ => none

/-- A message with its tag in front. -/
def tagged (tag : String) (fields : List (String × Json)) : Json :=
  .obj (("type", .str tag) :: fields)

def text? : Json → Option String
  | .str s => some s
  | _ => none

def flag? : Json → Option Bool
  | .bool b => some b
  | _ => none

/-- A whole number from zero to `largest`. -/
def natural? (largest : Nat) : Json → Option Nat
  | .int (.ofNat n) => if n ≤ largest then some n else none
  | _ => none

def list? {α : Type} (read : Json → Option α) : Json → Option (List α)
  | .arr items => items.mapM read
  | _ => none

/-- One of a set of words. It may be written as an object whose only member has that
name and the value `null`; inside a message the empty object serves as well. -/
def word? (inMessage : Bool) : Json → Option String
  | .str s => some s
  | .obj [(name, .null)] => some name
  | .obj [(name, .obj [])] => if inMessage then some name else none
  | _ => none

/-- Text, or `null` where there is none. -/
def ofText? (s : Option String) : Json := (s.map Json.str).getD .null

/-- A natural number, or `null` where there is none. -/
def ofNat? (n : Option Nat) : Json := (n.map fun n => Json.int n).getD .null

def ofTexts (texts : List String) : Json := .arr (texts.map .str)

end Json

/-- A kind of message with its JSON form. -/
class Wire (α : Type) where
  toJson : α → Json
  ofJson? : Json → Option α

/-- The text of a message, without the line break that ends it. -/
def Wire.encode {α : Type} [Wire α] (message : α) : String := (toJson message).render

def Wire.decode? {α : Type} [Wire α] (text : String) : Option α :=
  (Json.parse? text).bind ofJson?

end Xsmp
