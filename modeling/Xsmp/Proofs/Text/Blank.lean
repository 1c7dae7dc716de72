import Xsmp.Text.Blank

/-!
# Pieces of a text

A text is cut at a separator as the library splits a list, so what is known of splitting holds of
the lines of a manifest and of the parts of a path. A text that needs no trimming at its ends is
still whole when blanks come after it.
-/

namespace Xsmp.Text

theorem pieces_go {α : Type} [BEq α] (separator : α) (xs piece : List α) (done : List (List α)) :
    pieces.go separator xs piece done = done.reverse ++
      (xs.splitOn separator).modifyHead (piece.reverse ++ ·) := by
  induction xs generalizing piece done with
  | nil => simp [pieces.go]
  | cons x xs ih =>
    obtain ⟨first, others, hsplit⟩ := List.exists_cons_of_ne_nil (List.splitOn_ne_nil separator xs)
    rw [pieces.go, List.splitOn_cons_eq_if_modifyHead, ih, ih, hsplit]
    split <;> simp

/-- Cutting is the library's splitting. -/
theorem pieces_eq_splitOn {α : Type} [BEq α] (separator : α) (xs : List α) :
    pieces separator xs = xs.splitOn separator := by
  obtain ⟨first, others, hsplit⟩ := List.exists_cons_of_ne_nil (List.splitOn_ne_nil separator xs)
  rw [pieces, pieces_go, hsplit]
  rfl

/-- No piece of a list has a separator in it. -/
theorem of_mem_splitOnP {α : Type} {p : α → Bool} {xs piece : List α}
    (h : piece ∈ xs.splitOnP p) : ∀ x ∈ piece, p x = false := by
  induction xs generalizing piece with
  | nil =>
    obtain rfl : piece = [] := by simpa using h
    simp
  | cons x xs ih =>
    obtain ⟨first, others, hsplit⟩ := List.exists_cons_of_ne_nil (List.splitOnP_ne_nil p xs)
    rw [hsplit] at ih
    rw [List.splitOnP_cons_eq_if_modifyHead, hsplit] at h
    cases hseparates : p x with
    | true =>
      rw [hseparates, if_pos rfl] at h
      rcases List.mem_cons.mp h with rfl | h
      · simp
      · exact ih h
    | false =>
      rw [hseparates, if_neg Bool.false_ne_true, List.modifyHead_cons] at h
      rcases List.mem_cons.mp h with rfl | h
      · exact List.forall_mem_cons.mpr ⟨hseparates, ih List.mem_cons_self⟩
      · exact ih (List.mem_cons_of_mem first h)

/-! ## Trimming -/

variable {line blanks : List Char}

theorem trimStart_of_trim (h : trim line = line) : trimStart line = line := by
  have hsuffix : trimStart line <:+ line := List.dropWhile_suffix isBlank
  refine hsuffix.eq_of_length (Nat.le_antisymm hsuffix.length_le ?_)
  calc line.length = (trim line).length := by rw [h]
    _ ≤ (trimStart line).length := by
      rw [trim, trimEnd, List.length_reverse, ← @List.length_reverse _ (trimStart line)]
      exact (List.dropWhile_suffix isBlank).length_le

theorem trimEnd_of_trim (h : trim line = line) : trimEnd line = line := by
  rw [trim, trimStart_of_trim h] at h
  exact h

theorem trimStart_append (h : trimStart line = line) (hne : line ≠ []) (after : List Char) :
    trimStart (line ++ after) = line ++ after := by
  rw [trimStart] at h ⊢
  rw [List.dropWhile_append, h, if_neg (by simpa using hne)]

theorem trimEnd_append (h : trimEnd line = line) (hne : line ≠ []) (before : List Char) :
    trimEnd (before ++ line) = before ++ line := by
  have hreverse : trimStart line.reverse = line.reverse := by
    rw [← List.reverse_inj, List.reverse_reverse]
    exact h
  rw [trimEnd, List.reverse_append, ← trimStart,
    trimStart_append hreverse (by simpa using hne), List.reverse_append, List.reverse_reverse,
    List.reverse_reverse]

/-- Blanks after a line are trimmed off. -/
theorem trim_append_blanks (hstart : trimStart line = line) (hend : trimEnd line = line)
    (hne : line ≠ []) (hblanks : ∀ c ∈ blanks, isBlank c = true) :
    trim (line ++ blanks) = line := by
  have hreverse : ∀ c ∈ blanks.reverse, isBlank c = true := by simpa using hblanks
  rw [trim, trimStart_append hstart hne, trimEnd, List.reverse_append,
    List.dropWhile_append_of_pos hreverse, ← trimEnd, hend]

end Xsmp.Text
