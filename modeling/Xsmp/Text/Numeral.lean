/-!
# Numerals

Numbers in identifiers are padded with zeros to a least width; numbers in
properties and on the command line are decimal digits with an optional plus
sign and a largest value.
-/

namespace Xsmp.Text

/-- The decimal digits of `n`, padded with zeros to at least `width`. -/
def decimal (width n : Nat) : List Char := (Nat.toDigits 10 n).leftpad width '0'

/-- The lower-case hexadecimal digits of `n`, padded with zeros to at least `width`. -/
def hexadecimal (width n : Nat) : List Char := (Nat.toDigits 16 n).leftpad width '0'

/-- The padding does not count. -/
theorem ofDigitChars_decimal (width n : Nat) : Nat.ofDigitChars 10 (decimal width n) 0 = n := by
  rw [decimal, List.leftpad, Nat.ofDigitChars_append, Nat.ofDigitChars_replicate_zero, Nat.mul_zero]
  exact Nat.ofDigitChars_ten_toDigits

/-- A number that fits its width is written in just that many digits. -/
theorem length_decimal {width n : Nat} (h : (Nat.toDigits 10 n).length ≤ width) :
    (decimal width n).length = width := by
  rw [decimal, List.length_leftpad]
  exact Nat.max_eq_left h

/-- A numeral is one or more decimal digits. -/
def isNumeral (cs : List Char) : Bool := !cs.isEmpty && cs.all Char.isDigit

def natural? (cs : List Char) : Option Nat :=
  if isNumeral cs then some (Nat.ofDigitChars 10 cs 0) else none

/-- The value of decimal digits that follow the value `before`, given up as soon as it is
more than `largest`. -/
def boundedAfter? (largest : Nat) : (before : Nat) → List Char → Option Nat
  | before, [] => if before ≤ largest then some before else none
  | before, c :: cs =>
    if before ≤ largest then boundedAfter? largest (10 * before + (c.toNat - '0'.toNat)) cs
    else none

/-- The value of decimal digits, if it is at most `largest`. -/
def bounded? (largest : Nat) (digits : List Char) : Option Nat := boundedAfter? largest 0 digits

theorem le_ofDigitChars (before : Nat) (digits : List Char) :
    before ≤ Nat.ofDigitChars 10 digits before := by
  induction digits generalizing before with
  | nil => simp
  | cons c cs ih =>
    rw [Nat.ofDigitChars_cons]
    exact Nat.le_trans (by omega) (ih _)

/-- Giving up early does not change what is read. -/
theorem boundedAfter?_eq (largest before : Nat) (digits : List Char) :
    boundedAfter? largest before digits =
      (some (Nat.ofDigitChars 10 digits before)).filter (· ≤ largest) := by
  induction digits generalizing before with
  | nil => simp [boundedAfter?, Option.filter]
  | cons c cs ih =>
    rw [boundedAfter?, Nat.ofDigitChars_cons]
    by_cases h : before ≤ largest
    · rw [if_pos h, ih]
    · have hle := le_ofDigitChars (10 * before + (c.toNat - '0'.toNat)) cs
      have hmore : ¬ Nat.ofDigitChars 10 cs (10 * before + (c.toNat - '0'.toNat)) ≤ largest := by
        omega
      simp only [if_neg h, Option.filter, decide_eq_false hmore]
      rfl

theorem bounded?_eq (largest : Nat) (digits : List Char) :
    bounded? largest digits = (some (Nat.ofDigitChars 10 digits 0)).filter (· ≤ largest) :=
  boundedAfter?_eq largest 0 digits

/-- What follows a plus sign in front, if there is one. -/
def afterPlus : List Char → List Char
  | '+' :: rest => rest
  | cs => cs

/-- A numeral of at most `largest`, where a plus sign may stand in front. -/
def unsigned? (largest : Nat) (cs : List Char) : Option Nat :=
  if isNumeral (afterPlus cs) then bounded? largest (afterPlus cs) else none

theorem unsigned?_eq (largest : Nat) (cs : List Char) :
    unsigned? largest cs = (natural? (afterPlus cs)).filter (· ≤ largest) := by
  by_cases h : isNumeral (afterPlus cs) = true
  · simp only [unsigned?, natural?, if_pos h, bounded?_eq]
  · simp only [unsigned?, natural?, if_neg h, Option.filter_none]

theorem natural?_toDigits (n : Nat) : natural? (Nat.toDigits 10 n) = some n := by
  have hall : (Nat.toDigits 10 n).all Char.isDigit = true :=
    List.all_eq_true.2 fun _ hc => Nat.isDigit_of_mem_toDigits (by decide) (by decide) hc
  simp [natural?, isNumeral, Nat.toDigits_ne_nil, hall, Nat.ofDigitChars_ten_toDigits]

end Xsmp.Text
