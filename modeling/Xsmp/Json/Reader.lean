import Xsmp.Json.Value
import Xsmp.Json.Magnitude

/-!
# Reading JSON

The reader takes one value and nothing after it but white space. Lists and
objects nest up to a given depth. Text may hold any character but the control
characters below U+0020; an escape may name half of a surrogate pair, which
makes the text unreadable but not malformed.
-/

namespace Xsmp.Json

/-- The white space between tokens. -/
def isSpace (c : Char) : Bool := c == ' ' || c == '\t' || c == '\n' || c == '\r'

def skipSpace (cs : List Char) : List Char := cs.dropWhile isSpace

def hexDigit? (c : Char) : Option Nat :=
  let n := c.toNat
  if 48 ≤ n && n ≤ 57 then some (n - 48)
  else if 97 ≤ n && n ≤ 102 then some (n - 87)
  else if 65 ≤ n && n ≤ 70 then some (n - 55)
  else none

/-- The code unit of four hexadecimal digits. -/
def unit? (a b c d : Char) : Option Nat := do
  let a ← hexDigit? a
  let b ← hexDigit? b
  let c ← hexDigit? c
  let d ← hexDigit? d
  return ((a * 16 + b) * 16 + c) * 16 + d

def isLeading (unit : Nat) : Bool := 0xd800 ≤ unit && unit ≤ 0xdbff

def isTrailing (unit : Nat) : Bool := 0xdc00 ≤ unit && unit ≤ 0xdfff

/-- The character after a backslash, other than `u`. -/
def shortEscape? (c : Char) : Option Char :=
  if c = '"' || c = '\\' || c = '/' then some c
  else if c = 'b' then some '\x08'
  else if c = 'f' then some '\x0c'
  else if c = 'n' then some '\n'
  else if c = 'r' then some '\r'
  else if c = 't' then some '\t'
  else none

/-- The character of a surrogate pair. -/
def pairChar (leading trailing : Nat) : Char :=
  Char.ofNat (0x10000 + (leading - 0xd800) * 0x400 + (trailing - 0xdc00))

/-- The text up to the closing quotation mark and what follows it. `half` is the
first half of a surrogate pair when the last escape named one. The text comes as
`none` when it is well formed but not readable. -/
def readText : List Char → (half : Option Nat) → (before : List Char) → (whole : Bool) →
    Option (Option String × List Char)
  | [], _, _, _ => none
  | c :: cs, half, before, whole =>
    let unpaired := whole && half.isNone
    if c = '"' then
      some (if unpaired then some (String.ofList before.reverse) else none, cs)
    else if c = '\\' then
      match cs with
      | 'u' :: a :: b :: c :: d :: rest =>
        match unit? a b c d, half with
        | none, _ => none
        | some unit, some leading =>
          if isTrailing unit then readText rest none (pairChar leading unit :: before) whole
          else if isLeading unit then readText rest (some unit) before false
          else readText rest none before false
        | some unit, none =>
          if isLeading unit then readText rest (some unit) before whole
          else if isTrailing unit then readText rest none before false
          else readText rest none (Char.ofNat unit :: before) whole
      | e :: rest =>
        match shortEscape? e with
        | none => none
        | some c => readText rest none (c :: before) unpaired
      | [] => none
    else if c.toNat < 0x20 then none
    else readText cs none (c :: before) unpaired

/-- The value of the digits of a whole number, if 64 bits hold it. Minus zero is no whole
number. -/
def whole? (negative : Bool) (digits : List Char) : Option Int :=
  if negative then
    ((Text.bounded? 0x8000000000000000 digits).filter (0 < ·)).map fun n => -(n : Int)
  else (Text.bounded? maxUnsigned digits).map Int.ofNat

/-- The exponent at the front: whether one is written, its sign and its digits. -/
def readExponent? : List Char → Option (Bool × Bool × List Char × List Char)
  | c :: cs =>
    if c = 'e' || c = 'E' then
      let (negative, cs) := match cs with
        | '-' :: rest => (true, rest)
        | '+' :: rest => (false, rest)
        | _ => (false, cs)
      let digits := cs.takeWhile Char.isDigit
      if digits.isEmpty then none else some (true, negative, digits, cs.dropWhile Char.isDigit)
    else some (false, false, [], c :: cs)
  | [] => some (false, false, [], [])

/-- The fraction at the front: whether one is written, and its digits. -/
def readFraction? : List Char → Option (Bool × List Char × List Char)
  | '.' :: cs =>
    let digits := cs.takeWhile Char.isDigit
    if digits.isEmpty then none else some (true, digits, cs.dropWhile Char.isDigit)
  | cs => some (false, [], cs)

/-- The digits before the point: a zero alone, or digits that begin with another. -/
def readWhole? : List Char → Option (List Char × List Char)
  | [] => none
  | c :: cs =>
    if c = '0' then some (['0'], cs)
    else if c.isDigit then some (c :: cs.takeWhile Char.isDigit, cs.dropWhile Char.isDigit)
    else none

/-- A number written out, with a small `e` and without the plus sign of an exponent. -/
def literal (negative : Bool) (digits : List Char) (hasFraction : Bool) (fraction : List Char)
    (hasExponent negativeExponent : Bool) (exponent : List Char) : String :=
  String.ofList ((if negative then ['-'] else []) ++ digits
    ++ (if hasFraction then '.' :: fraction else [])
    ++ (if hasExponent then 'e' :: (if negativeExponent then ['-'] else []) ++ exponent else []))

def readMagnitude? (negative : Bool) (cs : List Char) : Option (Json × List Char) := do
  let (digits, cs) ← readWhole? cs
  let (hasFraction, fraction, cs) ← readFraction? cs
  let (hasExponent, negativeExponent, exponent, cs) ← readExponent? cs
  let whole := if hasFraction || hasExponent then none else whole? negative digits
  match whole with
  | some n => return (.int n, cs)
  | none =>
    if tooLarge digits fraction exponent negativeExponent then return (.void, cs)
    else return (.decimal (literal negative digits hasFraction fraction
      hasExponent negativeExponent exponent), cs)

def readNumber? : List Char → Option (Json × List Char)
  | '-' :: cs => readMagnitude? true cs
  | cs => readMagnitude? false cs

mutual
/-- The value at the front, where lists and objects nest at most `depth` deep. -/
def readValue (fuel depth : Nat) (cs : List Char) : Option (Json × List Char) :=
  match fuel with
  | 0 => none
  | fuel + 1 =>
    match skipSpace cs with
    | 'n' :: 'u' :: 'l' :: 'l' :: rest => some (.null, rest)
    | 't' :: 'r' :: 'u' :: 'e' :: rest => some (.bool true, rest)
    | 'f' :: 'a' :: 'l' :: 's' :: 'e' :: rest => some (.bool false, rest)
    | '"' :: rest =>
      match readText rest none [] true with
      | none => none
      | some (text, rest) => some ((text.map Json.str).getD .void, rest)
    | '[' :: rest =>
      if depth = 0 then none
      else match skipSpace rest with
        | ']' :: rest => some (.arr [], rest)
        | rest => readItems fuel (depth - 1) rest []
    | '{' :: rest =>
      if depth = 0 then none
      else match skipSpace rest with
        | '}' :: rest => some (.obj [], rest)
        | rest => readMembers fuel (depth - 1) rest [] true
    | rest => readNumber? rest

/-- The items of a list after those already read, newest first. -/
def readItems (fuel depth : Nat) (cs : List Char) (before : List Json) :
    Option (Json × List Char) :=
  match fuel with
  | 0 => none
  | fuel + 1 =>
    match readValue fuel depth cs with
    | none => none
    | some (item, rest) =>
      match skipSpace rest with
      | ',' :: rest => readItems fuel depth rest (item :: before)
      | ']' :: rest => some (.arr (item :: before).reverse, rest)
      | _ => none

/-- The members of an object after those already read, newest first. An object
with an unreadable name is unreadable. -/
def readMembers (fuel depth : Nat) (cs : List Char) (before : List (String × Json))
    (named : Bool) : Option (Json × List Char) :=
  match fuel with
  | 0 => none
  | fuel + 1 =>
    match skipSpace cs with
    | '"' :: rest =>
      match readText rest none [] true with
      | none => none
      | some (name, rest) =>
        match skipSpace rest with
        | ':' :: rest =>
          match readValue fuel depth rest with
          | none => none
          | some (value, rest) =>
            let before := (name.getD "", value) :: before
            let named := named && name.isSome
            match skipSpace rest with
            | ',' :: rest => readMembers fuel depth rest before named
            | '}' :: rest => some (if named then .obj before.reverse else .void, rest)
            | _ => none
        | _ => none
    | _ => none
end

/-- The value that a whole text is written as, nested at most `depth` deep. -/
def parseNested? (depth : Nat) (text : String) : Option Json :=
  let cs := text.toList
  match readValue (cs.length + 1) depth cs with
  | some (value, rest) => if (skipSpace rest).isEmpty then some value else none
  | none => none

/-- How deep lists and objects may nest in a message. -/
def maxDepth : Nat := 127

/-- The value of a text in which everything must be readable, as in a message. -/
def parse? (text : String) : Option Json := (parseNested? maxDepth text).filter readable

/-- The value of a text whose unreadable or deeply nested parts may be passed over. -/
def parseLenient? (text : String) : Option Json := parseNested? text.length text

end Xsmp.Json
