/-!
# Blank characters

Lines of a manifest are trimmed, words of a command are separated and empty
lines on a connection are skipped by one rule: a character is blank when the
Unicode property `White_Space` holds of it. That set is listed here, with the
trimming built on it.
-/

namespace Xsmp.Text

/-- The characters with the Unicode property `White_Space`. -/
def isBlank (c : Char) : Bool :=
  let n := c.toNat
  (9 ≤ n && n ≤ 13) || n == 0x20 || n == 0x85 || n == 0xa0 || n == 0x1680
    || (0x2000 ≤ n && n ≤ 0x200a) || n == 0x2028 || n == 0x2029 || n == 0x202f
    || n == 0x205f || n == 0x3000

/-- Every blank of the ASCII range that core knows is one of ours. -/
theorem isBlank_of_isWhitespace {c : Char} (h : c.isWhitespace = true) : isBlank c = true := by
  simp only [Char.isWhitespace, Bool.or_eq_true, decide_eq_true_eq] at h
  rcases h with ((rfl | rfl) | rfl) | rfl <;> rfl

def trimStart (cs : List Char) : List Char := cs.dropWhile isBlank

def trimEnd (cs : List Char) : List Char := (cs.reverse.dropWhile isBlank).reverse

def trim (cs : List Char) : List Char := trimEnd (trimStart cs)

/-- Cut a list at every occurrence of a separator. There is always one piece
more than there are separators. -/
def pieces {α : Type} [BEq α] (separator : α) (xs : List α) : List (List α) :=
  let rec go : List α → List α → List (List α) → List (List α)
    | [], piece, done => (piece.reverse :: done).reverse
    | x :: rest, piece, done =>
      if x == separator then go rest [] (piece.reverse :: done) else go rest (x :: piece) done
  go xs [] []

end Xsmp.Text
