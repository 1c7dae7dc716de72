import Xsmp.Text.Numeral

/-!
# Numbers beyond a double

A number is refused when its double would be infinite. The digits are gathered
into a significand of 64 bits and a power of ten; both are rounded to 53 bits
before they are multiplied, and the product is too large when it reaches the
midpoint between the largest double and the next power of two.
-/

namespace Xsmp.Json

/-- Round to 53 significant bits, a half to the even neighbour. -/
def roundToDouble (n : Nat) : Nat :=
  let spare := n.log2 + 1 - 53
  let unit := Nat.pow 2 spare
  let low := n % unit
  let high := n / unit
  if 2 * low < unit || (2 * low = unit && high % 2 = 0) then high * unit else (high + 1) * unit

/-- Whether a significand times a power of ten is larger than every double. -/
def beyondDouble (significand : Nat) (exponent : Int) : Bool :=
  match exponent with
  | .negSucc _ => false
  | .ofNat e =>
    if significand = 0 then false
    else if 308 < e then true
    else Nat.pow 2 1024 - Nat.pow 2 970 ≤ roundToDouble significand * roundToDouble (Nat.pow 10 e)

/-- Digits that were gathered, and the power of ten they are short of. -/
structure Gathered where
  significand : Nat := 0
  exponent : Int := 0
  /-- Set once a digit did not fit. -/
  full : Bool := false

/-- Add a digit of value `d`, if 64 bits hold the result. -/
def Gathered.push? (g : Gathered) (d : Nat) : Option Gathered :=
  let significand := g.significand * 10 + d
  if g.full || 0xffffffffffffffff < significand then none else some { g with significand }

/-- Gather the digits before the point: those that do not fit are counted. -/
def Gathered.whole (digits : List Char) : Gathered :=
  digits.foldl (fun g c =>
    (g.push? (c.toNat - 48)).getD { g with exponent := g.exponent + 1, full := true }) {}

/-- Gather the digits after the point: those that do not fit are dropped. -/
def Gathered.fraction (g : Gathered) (digits : List Char) : Gathered :=
  digits.foldl (fun g c =>
    match g.push? (c.toNat - 48) with
    | some g => { g with exponent := g.exponent - 1 }
    | none => { g with full := true }) { g with full := false }

/-- The value of an exponent's digits, or `none` when 32 bits do not hold it. -/
def exponent? (digits : List Char) : Option Nat := Text.bounded? 0x7fffffff digits

/-- Whether a number with these parts is larger than every double. -/
def tooLarge (whole fraction exponent : List Char) (negativeExponent : Bool) : Bool :=
  let g := (Gathered.whole whole).fraction fraction
  match exponent? exponent with
  | none => g.significand != 0 && !negativeExponent
  | some e => beyondDouble g.significand (if negativeExponent then g.exponent - e else g.exponent + e)

end Xsmp.Json
