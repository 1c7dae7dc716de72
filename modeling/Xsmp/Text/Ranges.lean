/-!
# Ranges of characters

A set of characters may be large and still fall into few ranges of code points.
The ranges are listed in ascending order, so a look-up stops at the first one
that begins too late.
-/

namespace Xsmp.Text

/-- Code points in ranges, each with its first and its last one. -/
abbrev CharRanges := List (Nat × Nat)

namespace CharRanges

/-- Whether a code point lies in one of the ranges. -/
def contains : CharRanges → Nat → Bool
  | [], _ => false
  | (first, last) :: rest, n => first ≤ n && (n ≤ last || contains rest n)

end CharRanges

end Xsmp.Text
