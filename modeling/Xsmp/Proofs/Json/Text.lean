import Xsmp.Json.Printer
import Xsmp.Json.Reader

/-!
# Text in JSON

What is printed between quotation marks is read back as the text it was printed from,
whatever characters it has, and no character of it is a control character. Every character
is written on its own, so both are facts about one character first.
-/

namespace Xsmp.Json

/-- Control characters below U+0020 and nothing else. -/
def isControl (c : Char) : Bool := c.toNat < 0x20

/-! ## One character -/

/-- Every control character has four hexadecimal digits that name it. -/
theorem hexadecimal_control : ∀ n < 0x20,
    (match Text.hexadecimal 4 n with
      | [a, b, d, e] => unit? a b d e == some n
        && !isControl a && !isControl b && !isControl d && !isControl e
      | _ => false) = true := by
  decide +kernel

/-- A character is written in one of three ways. -/
inductive Escaped (c : Char) : List Char → Prop
  /-- With a backslash in front of one other character. -/
  | short (e : Char) (hu : e ≠ 'u') (read : shortEscape? e = some c) (plain : isControl e = false) :
      Escaped c ['\\', e]
  /-- By its number. -/
  | unit (a b d e : Char) (read : unit? a b d e = some c.toNat) (hlow : c.toNat < 0x20)
      (plain : isControl a = false ∧ isControl b = false ∧ isControl d = false
        ∧ isControl e = false) : Escaped c ['\\', 'u', a, b, d, e]
  | itself (hquote : c ≠ '"') (hslash : c ≠ '\\') (plain : isControl c = false) : Escaped c [c]

theorem escaped_escape (c : Char) : Escaped c (escape c) := by
  unfold escape
  split
  · next h =>
      rw [h]
      exact .short '"' (by decide) (by decide) (by decide)
  split
  · next h =>
      rw [h]
      exact .short '\\' (by decide) (by decide) (by decide)
  split
  · next h =>
      rw [h]
      exact .short 'b' (by decide) (by decide) (by decide)
  split
  · next h =>
      rw [h]
      exact .short 'f' (by decide) (by decide) (by decide)
  split
  · next h =>
      rw [h]
      exact .short 'n' (by decide) (by decide) (by decide)
  split
  · next h =>
      rw [h]
      exact .short 'r' (by decide) (by decide) (by decide)
  split
  · next h =>
      rw [h]
      exact .short 't' (by decide) (by decide) (by decide)
  split
  · next hlow =>
      have hdigits := hexadecimal_control c.toNat hlow
      split at hdigits
      · next a b d e heq =>
          simp only [Bool.and_eq_true, Bool.not_eq_true', beq_iff_eq] at hdigits
          obtain ⟨⟨⟨⟨hread, ha⟩, hb⟩, hd⟩, he⟩ := hdigits
          rw [heq]
          exact .unit a b d e hread hlow ⟨ha, hb, hd, he⟩
      · exact absurd hdigits (by simp)
  · next hquote hslash _ _ _ _ _ hlow =>
      refine .itself hquote hslash ?_
      simpa [isControl] using hlow

/-- A character is read back from the way it is written. -/
theorem readText_escape (c : Char) (rest before : List Char) :
    readText (escape c ++ rest) none before true = readText rest none (c :: before) true := by
  generalize hwritten : escape c = written
  cases hwritten ▸ escaped_escape c with
  | short e hu read plain =>
      rw [readText.eq_def]
      simp [hu, read]
  | unit a b d e read hlow plain =>
      -- no control character is half of a surrogate pair
      have hleading : isLeading c.toNat = false := by
        simp only [isLeading, Bool.and_eq_false_iff, decide_eq_false_iff_not]
        omega
      have htrailing : isTrailing c.toNat = false := by
        simp only [isTrailing, Bool.and_eq_false_iff, decide_eq_false_iff_not]
        omega
      rw [readText.eq_def]
      simp [read, hleading, htrailing]
  | itself hquote hslash plain =>
      have hlow : ¬c.toNat < 0x20 := by simpa [isControl] using plain
      rw [readText.eq_def]
      simp [hquote, hslash, hlow]

theorem Escaped.isControl {c d : Char} {written : List Char} (h : Escaped c written)
    (hd : d ∈ written) : Json.isControl d = false := by
  have hslash : Json.isControl '\\' = false := by decide
  have hu : Json.isControl 'u' = false := by decide
  cases h with
  | short e _ _ plain =>
      simp only [List.mem_cons, List.not_mem_nil, or_false] at hd
      rcases hd with rfl | rfl
      · exact hslash
      · exact plain
  | unit a b d e _ _ plain =>
      obtain ⟨ha, hb, hd', he⟩ := plain
      simp only [List.mem_cons, List.not_mem_nil, or_false] at hd
      rcases hd with rfl | rfl | rfl | rfl | rfl | rfl
      · exact hslash
      · exact hu
      · exact ha
      · exact hb
      · exact hd'
      · exact he
  | itself _ _ plain =>
      rw [List.mem_singleton.mp hd]
      exact plain

/-! ## Whole texts -/

theorem readText_flatMap_escape (cs rest before : List Char) :
    readText (cs.flatMap escape ++ '"' :: rest) none before true =
      some (some (String.ofList (before.reverse ++ cs)), rest) := by
  induction cs generalizing before with
  | nil =>
      rw [List.flatMap_nil, List.nil_append, readText.eq_def]
      simp
  | cons c cs ih =>
      rw [List.flatMap_cons, List.append_assoc, readText_escape, ih]
      simp

/-- **What is printed between quotation marks is read back as it was.** -/
theorem readText_quoted (s : String) (rest : List Char) :
    readText ((quoted s).tail ++ rest) none [] true = some (some s, rest) := by
  have htext := readText_flatMap_escape s.toList rest []
  simpa [quoted] using htext

theorem isControl_quoted {s : String} {c : Char} (h : c ∈ quoted s) : isControl c = false := by
  have hquote : isControl '"' = false := by decide
  rw [quoted, List.cons_append, List.mem_cons, List.mem_append, List.mem_flatMap,
    List.mem_singleton] at h
  rcases h with rfl | ⟨d, _, hd⟩ | rfl
  · exact hquote
  · exact (escaped_escape d).isControl hd
  · exact hquote

end Xsmp.Json
