import Xsmp.Text.Escape

/-!
# Writing values with escapes

What is written with a backslash before each backslash, and with an escape for each line break
and tab, is read back as it was and stays on one line.
-/

namespace Xsmp.Text

def escapeChar (c : Char) : List Char :=
  if c = '\\' then ['\\', '\\']
  else if c = '\n' then ['\\', 'n']
  else if c = '\r' then ['\\', 'r']
  else if c = '\t' then ['\\', 't']
  else [c]

/-- A value as it is written. -/
def escape (cs : List Char) : List Char := cs.flatMap escapeChar

theorem unescape_escapeChar (c : Char) (rest : List Char) :
    unescape (escapeChar c ++ rest) = c :: unescape rest := by
  rw [escapeChar]
  split
  · next hbackslash =>
    subst hbackslash
    exact unescape_backslash '\\' rest
  split
  · next hfeed => exact hfeed ▸ unescape_backslash 'n' rest
  split
  · next hreturn => exact hreturn ▸ unescape_backslash 'r' rest
  split
  · next htab => exact htab ▸ unescape_backslash 't' rest
  · next hbackslash _ _ _ => exact unescape_cons hbackslash rest

/-- **A value is read back.** -/
theorem unescape_escape (cs : List Char) : unescape (escape cs) = cs := by
  induction cs with
  | nil => rfl
  | cons c cs ih => rw [escape, List.flatMap_cons, unescape_escapeChar, ← escape, ih]

/-- No line break is left in what is written. -/
theorem lineFeed_not_mem_escape (cs : List Char) : '\n' ∉ escape cs := by
  rw [escape, List.mem_flatMap]
  rintro ⟨c, -, hmem⟩
  grind [escapeChar]

end Xsmp.Text
