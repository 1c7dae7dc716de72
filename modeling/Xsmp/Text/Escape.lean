/-!
# Escapes in values

The value of a manifest key writes blanks and line breaks with a backslash. A
backslash before any other character stands for itself, and so does one at the
end.
-/

namespace Xsmp.Text

/-- The characters that an escape stands for. -/
def escaped (c : Char) : List Char :=
  if c = 's' then [' ']
  else if c = 'n' then ['\n']
  else if c = 't' then ['\t']
  else if c = 'r' then ['\r']
  else if c = '\\' then ['\\']
  else ['\\', c]

/-- Read the escapes of a value; `done` is what was read before, last character first. -/
def unescapeAfter (done : List Char) : List Char → List Char
  | [] => done.reverse
  | '\\' :: c :: rest => unescapeAfter ((escaped c).reverse ++ done) rest
  | c :: rest => unescapeAfter (c :: done) rest

/-- The value that an escaped one stands for. -/
def unescape (cs : List Char) : List Char := unescapeAfter [] cs

/-- What was read before stays in front. -/
theorem unescapeAfter_append (done before cs : List Char) :
    unescapeAfter (done ++ before) cs = before.reverse ++ unescapeAfter done cs := by
  fun_induction unescapeAfter done cs with
  | case1 => simp [unescapeAfter]
  | case2 done c rest ih => rw [unescapeAfter, ← List.append_assoc, ih]
  | case3 done c rest h ih => rw [unescapeAfter.eq_3 _ _ _ h, ← List.cons_append, ih]

theorem unescape_backslash (c : Char) (rest : List Char) :
    unescape ('\\' :: c :: rest) = escaped c ++ unescape rest := by
  have h := unescapeAfter_append [] (escaped c).reverse rest
  simpa [unescape, unescapeAfter] using h

theorem unescape_cons {c : Char} (hc : c ≠ '\\') (rest : List Char) :
    unescape (c :: rest) = c :: unescape rest := by
  have h := unescapeAfter_append [] [c] rest
  rw [unescape, unescapeAfter.eq_3 _ _ _ fun _ _ e => absurd e hc]
  simpa [unescape] using h

end Xsmp.Text
