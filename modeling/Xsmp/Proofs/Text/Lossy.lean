import Xsmp.Proofs.Text.Utf8

/-!
# Text that is cut or broken

Bytes that are no text are still read, with the replacement character for each fault. Every
byte leaves a trace in what is read. A text that is cut inside a character is read as the
characters before it and one replacement.
-/

namespace Xsmp.Utf8

/-! ## Every byte leaves a trace -/

/-- A byte yields a character or a fault, or it is inside a character. -/
theorem step_trace (state : State) (b : UInt8) :
    (step state b).1 ≠ [] ∨ (step state b).2 ≠ .ready := by
  have hbegin : (step .ready b).1 ≠ [] ∨ (step .ready b).2 ≠ .ready := by
    simp only [step]
    rcases start b with ⟨_ | c, _ | _⟩
    · exact .inl (List.cons_ne_nil _ _)
    · exact .inr State.noConfusion
    · exact .inl (List.cons_ne_nil _ _)
    · exact .inl (List.cons_ne_nil _ _)
  cases state with
  | ready => exact hbegin
  | inside left code low high =>
    simp only [step]
    split
    · split
      · exact .inl (List.cons_ne_nil _ _)
      · exact .inr State.noConfusion
    · -- the byte that shows the fault begins afresh, after the fault
      rcases start b with ⟨_ | c, _ | _⟩ <;> exact .inl (List.cons_ne_nil _ _)

/-- What has been read before does not matter for what is read next. -/
theorem foldl_advance (read : List (Option Char)) (state : State) (bytes : Bytes) :
    bytes.foldl advance (read, state) =
      ((bytes.foldl advance ([], state)).1 ++ read, (bytes.foldl advance ([], state)).2) := by
  induction bytes generalizing read state with
  | nil => rfl
  | cons b bytes ih =>
    rw [List.foldl_cons, List.foldl_cons, advance, advance, ih, ih ((step state b).1 ++ [])]
    simp

theorem foldl_trace {bytes : Bytes} (h : bytes ≠ []) (state : State) :
    (bytes.foldl advance ([], state)).1 ≠ [] ∨ (bytes.foldl advance ([], state)).2 ≠ .ready := by
  rw [← List.dropLast_concat_getLast h, List.foldl_append, List.foldl_cons, List.foldl_nil,
    advance]
  exact (step_trace _ _).imp (fun hread => List.append_ne_nil_of_left_ne_nil hread _) id

/-- What is read of some bytes, from what is read of them until they end. -/
theorem scan_eq (bytes : Bytes) :
    scan bytes = match bytes.foldl advance ([], .ready) with
      | (read, .ready) => read.reverse
      | (read, .inside ..) => (none :: read).reverse := by
  rw [scan]
  generalize hfold : List.foldl _ _ bytes = last
  have hlast : bytes.foldl advance ([], .ready) = last := hfold
  rw [hlast]
  obtain ⟨read, _ | _⟩ := last <;> rfl

/-- Only no bytes are read as no text. -/
theorem decodeLossy_eq_empty_iff {bytes : Bytes} : decodeLossy bytes = "" ↔ bytes = [] := by
  constructor
  · intro h
    refine Decidable.byContradiction fun hbytes => ?_
    have htrace := foldl_trace hbytes .ready
    have hscan : scan bytes = [] := by
      have hlist := congrArg String.toList h
      simpa [decodeLossy] using hlist
    rw [scan_eq] at hscan
    rcases hfold : bytes.foldl advance ([], .ready) with ⟨read, _ | _⟩
    · rw [hfold] at htrace hscan
      have hread : read = [] := List.reverse_eq_nil_iff.mp hscan
      exact htrace.elim (absurd hread) (absurd rfl)
    · rw [hfold] at hscan
      exact absurd (List.reverse_eq_nil_iff.mp hscan) (List.cons_ne_nil _ _)
  · rintro rfl
    rfl

/-! ## Whole and cut texts -/

theorem decodeLossy_utf8 (s : String) : decodeLossy (utf8 s) = s := by
  have hscan : scan (utf8 s) = s.toList.map some := scan_encode s.toList
  have hread : (s.toList.map some).map (·.getD '\ufffd') = s.toList := by
    simp [Function.comp_def]
  rw [decodeLossy, hscan, hread, String.ofList_toList]

theorem utf8_append (s t : String) : utf8 (s ++ t) = utf8 s ++ utf8 t := by
  simp [utf8, encode, String.toList_append, List.flatMap_append]

/-- Inside a character nothing has been read of it. -/
theorem foldl_of_utf8EncodeChar {c : Char} {before after : Bytes}
    (h : String.utf8EncodeChar c = before ++ after) (hbefore : before ≠ [])
    (hafter : after ≠ []) :
    ∃ left code low high,
      before.foldl advance ([], .ready) = ([], .inside left code low high) := by
  have hwhole := foldl_utf8EncodeChar [] c
  rw [h, List.foldl_append] at hwhole
  have htrace := foldl_trace hbefore .ready
  rcases hread : before.foldl advance ([], .ready) with ⟨read, state⟩
  rw [hread] at htrace hwhole
  rw [foldl_advance, Prod.mk.injEq] at hwhole
  -- the rest of the character leaves a trace too, and there is one character for both
  have hrest : (after.foldl advance ([], state)).1 ≠ [] :=
    (foldl_trace hafter state).resolve_right (not_not_intro hwhole.2)
  have hlength := congrArg List.length hwhole.1
  rw [List.length_append, List.length_singleton] at hlength
  have hsome := List.length_pos_iff.mpr hrest
  have hnone : read = [] := List.length_eq_zero_iff.mp (by omega)
  subst hnone
  cases state with
  | ready => exact absurd rfl (htrace.resolve_left (not_not_intro rfl))
  | inside left code low high => exact ⟨left, code, low, high, rfl⟩

/-- **A text that is cut inside a character** is read with a replacement for that one. -/
theorem decodeLossy_cut (s : String) {c : Char} {before after : Bytes}
    (h : String.utf8EncodeChar c = before ++ after) (hbefore : before ≠ [])
    (hafter : after ≠ []) :
    decodeLossy (utf8 s ++ before) = s ++ "\ufffd" := by
  obtain ⟨left, code, low, high, hcut⟩ := foldl_of_utf8EncodeChar h hbefore hafter
  have hscan : scan (utf8 s ++ before) = s.toList.map some ++ [none] := by
    have htext := foldl_encode [] s.toList
    rw [List.append_nil] at htext
    rw [scan_eq, List.foldl_append, utf8, htext, foldl_advance, hcut]
    simp
  have hread : (s.toList.map some ++ [(none : Option Char)]).map (·.getD '\ufffd') =
      s.toList ++ ['\ufffd'] := by
    simp [Function.comp_def]
  rw [decodeLossy, hscan, hread, String.ofList_append, String.ofList_toList]

/-- The first bytes of a text are a text, or one that is cut inside a character. -/
theorem take_encode (cs : List Char) (n : Nat) :
    (∃ whole, (encode cs).take n = encode whole) ∨
      ∃ whole c rest before after, cs = whole ++ c :: rest ∧
        String.utf8EncodeChar c = before ++ after ∧ before ≠ [] ∧ after ≠ [] ∧
          (encode cs).take n = encode whole ++ before := by
  induction cs generalizing n with
  | nil => exact .inl ⟨[], List.take_nil⟩
  | cons c cs ih =>
    have hencode : ∀ cs, encode (c :: cs) = String.utf8EncodeChar c ++ encode cs :=
      fun cs => List.flatMap_cons
    by_cases hzero : n = 0
    · exact .inl ⟨[], by rw [hzero]; rfl⟩
    by_cases hinside : n < (String.utf8EncodeChar c).length
    · refine .inr ⟨[], c, cs, (String.utf8EncodeChar c).take n, (String.utf8EncodeChar c).drop n,
        rfl, (List.take_append_drop _ _).symm, ?_, ?_, ?_⟩
      · rw [Ne, List.take_eq_nil_iff]
        exact not_or_intro hzero (String.utf8EncodeChar_ne_nil)
      · rw [Ne, List.drop_eq_nil_iff]
        exact Nat.not_le.mpr hinside
      · rw [hencode, List.take_append_of_le_length (Nat.le_of_lt hinside)]
        rfl
    · have htake : (encode (c :: cs)).take n = String.utf8EncodeChar c ++
          (encode cs).take (n - (String.utf8EncodeChar c).length) := by
        rw [hencode, List.take_append, List.take_of_length_le (Nat.le_of_not_lt hinside)]
      rw [htake]
      rcases ih (n - (String.utf8EncodeChar c).length) with
        ⟨whole, h⟩ | ⟨whole, c', rest, before, after, rfl, hc', hbefore, hafter, h⟩
      · exact .inl ⟨c :: whole, by rw [h, hencode]⟩
      · exact .inr ⟨c :: whole, c', rest, before, after, rfl, hc', hbefore, hafter,
          by rw [h, hencode, List.append_assoc]⟩

end Xsmp.Utf8
