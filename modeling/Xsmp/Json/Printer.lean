import Xsmp.Json.Value

/-!
# Printing JSON

Values are written without spaces, members in the order they stand. Inside
text the quotation mark, the backslash and the control characters below U+0020
are escaped, and everything else stands for itself. A line break is a control
character, so no printed value contains one.
-/

namespace Xsmp.Json

/-- How a character is written inside text. -/
def escape (c : Char) : List Char :=
  if c = '"' then ['\\', '"']
  else if c = '\\' then ['\\', '\\']
  else if c = '\x08' then ['\\', 'b']
  else if c = '\x0c' then ['\\', 'f']
  else if c = '\n' then ['\\', 'n']
  else if c = '\r' then ['\\', 'r']
  else if c = '\t' then ['\\', 't']
  else if c.toNat < 0x20 then ['\\', 'u'] ++ Text.hexadecimal 4 c.toNat
  else [c]

def quoted (s : String) : List Char := '"' :: s.toList.flatMap escape ++ ['"']

mutual
/-- The characters of a value. What cannot be read has no text of its own. -/
def print : Json → List Char
  | .null | .void => "null".toList
  | .bool true => "true".toList
  | .bool false => "false".toList
  | .int (.ofNat n) => Nat.toDigits 10 n
  | .int (.negSucc n) => '-' :: Nat.toDigits 10 (n + 1)
  | .decimal literal => literal.toList
  | .str s => quoted s
  | .arr [] => ['[', ']']
  | .arr (item :: rest) => '[' :: item.print ++ printItems rest
  | .obj [] => ['{', '}']
  | .obj ((name, value) :: rest) => '{' :: quoted name ++ ':' :: value.print ++ printMembers rest

/-- The rest of a list after an item. -/
def printItems : List Json → List Char
  | [] => [']']
  | item :: rest => ',' :: item.print ++ printItems rest

/-- The rest of an object after a member. -/
def printMembers : List (String × Json) → List Char
  | [] => ['}']
  | (name, value) :: rest => ',' :: quoted name ++ ':' :: value.print ++ printMembers rest
end

def render (json : Json) : String := String.ofList json.print

end Xsmp.Json
