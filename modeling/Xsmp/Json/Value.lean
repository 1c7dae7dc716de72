import Xsmp.Text.Numeral

/-!
# JSON values

A value keeps everything a reader of records asks for: members stand in the
order they were written, a name may occur twice, and whole numbers are told
apart from those written with a fraction or an exponent.
-/

namespace Xsmp

inductive Json where
  | null
  | bool (value : Bool)
  /-- A whole number of 64 bits, written without fraction or exponent. -/
  | int (value : Int)
  /-- Any other number, as it is written out. -/
  | decimal (literal : String)
  | str (value : String)
  | arr (items : List Json)
  | obj (members : List (String × Json))
  /-- Well formed but not readable: a number beyond every double, or text with
  half a surrogate pair. It can only be passed over. -/
  | void
  deriving Inhabited

namespace Json

/-- The largest unsigned number of 64 bits. -/
def maxUnsigned : Nat := 0xffffffffffffffff

mutual
/-- Whether every part of a value can be read. -/
def readable : Json → Bool
  | .void => false
  | .arr items => readableItems items
  | .obj members => readableMembers members
  | _ => true

def readableItems : List Json → Bool
  | [] => true
  | item :: rest => item.readable && readableItems rest

def readableMembers : List (String × Json) → Bool
  | [] => true
  | (_, value) :: rest => value.readable && readableMembers rest
end

end Json

end Xsmp
