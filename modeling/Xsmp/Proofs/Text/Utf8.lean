import Xsmp.Text.Utf8

/-!
# Text survives its bytes

Reading the bytes of a character from the state between characters gives that character and
leads back to that state, so the bytes of a text are read as that text. The bytes beyond the
ASCII range serve no other character: a line feed among the bytes is one in the text.
-/

namespace Xsmp.Utf8

variable {b low high : UInt8} {left code : Nat} {c : Char}

/-! ## The first byte of a character -/

theorem not_lt_of_toNat_le {bound : UInt8} (h : bound.toNat ≤ b.toNat) : ¬ b < bound :=
  fun hlt => absurd (UInt8.lt_iff_toNat_lt.mp hlt) (Nat.not_lt.mpr h)

theorem start_ascii (h : b.toNat < 0x80) : start b = (some (Char.ofNat b.toNat), .ready) := by
  rw [start, if_pos (UInt8.lt_iff_toNat_lt.mpr h)]

theorem start_two (h : 0xc2 ≤ b.toNat) (h' : b.toNat < 0xe0) :
    start b = (none, .inside 1 (b.toNat - 0xc0) 0x80 0xbf) := by
  have hascii : ¬ b < 0x80 := not_lt_of_toNat_le (Nat.le_trans (by decide) h)
  have hshort : ¬ b < 0xc2 := not_lt_of_toNat_le h
  have htwo : b < 0xe0 := UInt8.lt_iff_toNat_lt.mpr h'
  rw [start, if_neg hascii, if_neg hshort, if_pos htwo]

/-- After the first byte of three, the next one is kept from making an overlong form or a
surrogate. -/
theorem start_three (h : 0xe0 ≤ b.toNat) (h' : b.toNat < 0xf0) :
    start b = (none, .inside 2 (b.toNat - 0xe0) (if b = 0xe0 then 0xa0 else 0x80)
      (if b = 0xed then 0x9f else 0xbf)) := by
  have hascii : ¬ b < 0x80 := not_lt_of_toNat_le (Nat.le_trans (by decide) h)
  have hshort : ¬ b < 0xc2 := not_lt_of_toNat_le (Nat.le_trans (by decide) h)
  have htwo : ¬ b < 0xe0 := not_lt_of_toNat_le h
  have hthree : b < 0xf0 := UInt8.lt_iff_toNat_lt.mpr h'
  rw [start, if_neg hascii, if_neg hshort, if_neg htwo]
  by_cases hfirst : b = 0xe0
  · subst hfirst
    rfl
  · by_cases hsurrogate : b = 0xed
    · subst hsurrogate
      rfl
    · rw [if_neg hfirst, if_neg hsurrogate, if_pos hthree, if_neg hfirst, if_neg hsurrogate]

/-- After the first byte of four, the next one is kept from making an overlong form or going
beyond the last character. -/
theorem start_four (h : 0xf0 ≤ b.toNat) (h' : b.toNat ≤ 0xf4) :
    start b = (none, .inside 3 (b.toNat - 0xf0) (if b = 0xf0 then 0x90 else 0x80)
      (if b = 0xf4 then 0x8f else 0xbf)) := by
  have hascii : ¬ b < 0x80 := not_lt_of_toNat_le (Nat.le_trans (by decide) h)
  have hshort : ¬ b < 0xc2 := not_lt_of_toNat_le (Nat.le_trans (by decide) h)
  have htwo : ¬ b < 0xe0 := not_lt_of_toNat_le (Nat.le_trans (by decide) h)
  have hthree : ¬ b < 0xf0 := not_lt_of_toNat_le h
  have hzero : b ≠ 0xe0 := fun heq => hthree (heq ▸ by decide)
  have hsurrogate : b ≠ 0xed := fun heq => hthree (heq ▸ by decide)
  rw [start, if_neg hascii, if_neg hshort, if_neg htwo, if_neg hzero, if_neg hsurrogate,
    if_neg hthree]
  by_cases hfirst : b = 0xf0
  · subst hfirst
    rfl
  · by_cases hlast : b = 0xf4
    · subst hlast
      rfl
    · have hne : b.toNat ≠ 0xf4 := fun heq => hlast (UInt8.toNat_inj.mp heq)
      have hfour : b < 0xf4 := UInt8.lt_iff_toNat_lt.mpr (Nat.lt_of_le_of_ne h' hne)
      rw [if_neg hfirst, if_pos hfour, if_neg hfirst, if_neg hlast]

/-! ## One byte after the other -/

theorem step_ready_of_char (h : start b = (some c, .ready)) :
    step .ready b = ([some c], .ready) := by
  simp only [step, h]

theorem step_ready_of_inside (h : start b = (none, .inside left code low high)) :
    step .ready b = ([], .inside left code low high) := by
  simp only [step, h]

theorem step_inside_last (h : low ≤ b) (h' : b ≤ high) :
    step (.inside 1 code low high) b =
      ([some (Char.ofNat (code * 64 + (b.toNat - 0x80)))], .ready) := by
  simp only [step, h, h', decide_true, Bool.and_self, if_true, Nat.le_refl]

theorem step_inside_more (h : low ≤ b) (h' : b ≤ high) :
    step (.inside (left + 2) code low high) b =
      ([], .inside (left + 1) (code * 64 + (b.toNat - 0x80)) 0x80 0xbf) := by
  have hleft : ¬ left + 2 ≤ 1 := by omega
  simp only [step, h, h', decide_true, Bool.and_self, if_true, hleft, if_false]
  rfl

/-- What has been read, newest first, and the state, after one more byte. -/
def advance (read : List (Option Char) × State) (b : UInt8) : List (Option Char) × State :=
  ((step read.2 b).1 ++ read.1, (step read.2 b).2)

theorem advance_eq {state next : State} {new : List (Option Char)} (read : List (Option Char))
    (h : step state b = (new, next)) : advance (read, state) b = (new ++ read, next) := by
  simp only [advance, h]

theorem scan_of_ready {bytes : Bytes} {read : List (Option Char)}
    (h : bytes.foldl advance ([], .ready) = (read, .ready)) : scan bytes = read.reverse := by
  -- the function that is folded there is `advance` up to the way it takes the pair apart
  rw [scan]
  generalize hfold : List.foldl _ _ bytes = last
  have hlast : last = (read, .ready) := hfold.symm.trans h
  rw [hlast]

/-! ## Characters -/

/-- A byte that goes on with a character holds six bits of it. -/
def tail (n : Nat) : UInt8 := UInt8.ofNat (n % 0x40 + 0x80)

theorem toNat_tail (n : Nat) : (tail n).toNat = n % 0x40 + 0x80 := by
  rw [tail, UInt8.toNat_ofNat']
  omega

theorem le_tail (n : Nat) (h : low.toNat ≤ n % 0x40 + 0x80) : low ≤ tail n := by
  rw [UInt8.le_iff_toNat_le, toNat_tail]
  exact h

theorem tail_le (n : Nat) (h : n % 0x40 + 0x80 ≤ high.toNat) : tail n ≤ high := by
  rw [UInt8.le_iff_toNat_le, toNat_tail]
  exact h

/-- The last byte of a character completes it. -/
theorem advance_last (read : List (Option Char)) (n : Nat) (h : low ≤ tail n)
    (h' : tail n ≤ high) :
    advance (read, .inside 1 (n / 0x40) low high) (tail n) =
      (some (Char.ofNat n) :: read, .ready) := by
  have hcode : n / 0x40 * 64 + ((tail n).toNat - 0x80) = n := by
    rw [toNat_tail]
    omega
  have hstep : step (.inside 1 (n / 0x40) low high) (tail n) = ([some (Char.ofNat n)], .ready) := by
    rw [step_inside_last h h', hcode]
  exact advance_eq read hstep

/-- A byte before the last one adds its six bits. -/
theorem advance_more (read : List (Option Char)) (n : Nat) (h : low ≤ tail n)
    (h' : tail n ≤ high) :
    advance (read, .inside (left + 2) (n / 0x40) low high) (tail n) =
      (read, .inside (left + 1) n 0x80 0xbf) := by
  have hcode : n / 0x40 * 64 + ((tail n).toNat - 0x80) = n := by
    rw [toNat_tail]
    omega
  have hstep : step (.inside (left + 2) (n / 0x40) low high) (tail n) =
      ([], .inside (left + 1) n 0x80 0xbf) := by
    rw [step_inside_more h h', hcode]
  exact advance_eq read hstep

theorem tail_range (n : Nat) : 0x80 ≤ tail n ∧ tail n ≤ 0xbf :=
  ⟨le_tail n (Nat.le_add_left _ _), tail_le n (by show _ ≤ 0xbf; omega)⟩

section

variable (read : List (Option Char)) {n : Nat}

theorem foldl_two (h : 0x80 ≤ n) (h' : n ≤ 0x7ff) :
    [UInt8.ofNat (n / 64 % 0x20 + 0xc0), tail n].foldl advance (read, .ready) =
      (some (Char.ofNat n) :: read, .ready) := by
  have hlead : (UInt8.ofNat (n / 64 % 0x20 + 0xc0)).toNat = n / 64 + 0xc0 := by
    rw [UInt8.toNat_ofNat']
    omega
  have hstart := start_two (b := UInt8.ofNat (n / 64 % 0x20 + 0xc0)) (by omega) (by omega)
  rw [hlead, Nat.add_sub_cancel] at hstart
  obtain ⟨hlow, hhigh⟩ := tail_range n
  rw [List.foldl_cons, advance_eq read (step_ready_of_inside hstart), List.foldl_cons]
  exact advance_last read n hlow hhigh

theorem foldl_three (h : 0x800 ≤ n) (h' : n ≤ 0xffff) (hvalid : n < 0xd800 ∨ 0xdfff < n) :
    [UInt8.ofNat (n / 4096 % 0x10 + 0xe0), tail (n / 64), tail n].foldl advance (read, .ready) =
      (some (Char.ofNat n) :: read, .ready) := by
  have hlead : (UInt8.ofNat (n / 4096 % 0x10 + 0xe0)).toNat = n / 64 / 0x40 + 0xe0 := by
    rw [UInt8.toNat_ofNat']
    omega
  generalize UInt8.ofNat (n / 4096 % 0x10 + 0xe0) = lead at hlead
  have hstart := start_three (b := lead) (by omega) (by omega)
  rw [hlead, Nat.add_sub_cancel] at hstart
  -- with no bits in the first byte, two bytes would have been enough below A0
  have hlow : (if lead = 0xe0 then 0xa0 else 0x80 : UInt8) ≤ tail (n / 64) := by
    split
    · next hfirst =>
        subst hfirst
        have hzero : n / 64 / 0x40 = 0 := Nat.add_right_cancel hlead.symm
        exact le_tail _ (by show 0xa0 ≤ _; omega)
    · exact (tail_range _).1
  -- the surrogates are the numbers that begin with ED and go on beyond 9F
  have hhigh : tail (n / 64) ≤ (if lead = 0xed then 0x9f else 0xbf : UInt8) := by
    split
    · next hsurrogate =>
        subst hsurrogate
        have hthirteen : n / 64 / 0x40 = 13 := Nat.add_right_cancel hlead.symm
        exact tail_le _ (by show _ ≤ 0x9f; omega)
    · exact (tail_range _).2
  obtain ⟨hlow', hhigh'⟩ := tail_range n
  rw [List.foldl_cons, advance_eq read (step_ready_of_inside hstart), List.nil_append,
    List.foldl_cons, advance_more read (n / 64) hlow hhigh, List.foldl_cons]
  exact advance_last read n hlow' hhigh'

theorem foldl_four (h : 0x10000 ≤ n) (h' : n < 0x110000) :
    [UInt8.ofNat (n / 262144 % 0x08 + 0xf0), tail (n / 4096), tail (n / 64), tail n].foldl advance
      (read, .ready) = (some (Char.ofNat n) :: read, .ready) := by
  have hnext : n / 4096 = n / 64 / 64 := by omega
  have hlead : (UInt8.ofNat (n / 262144 % 0x08 + 0xf0)).toNat = n / 64 / 64 / 0x40 + 0xf0 := by
    rw [UInt8.toNat_ofNat']
    omega
  generalize UInt8.ofNat (n / 262144 % 0x08 + 0xf0) = lead at hlead
  have hstart := start_four (b := lead) (by omega) (by omega)
  rw [hlead, Nat.add_sub_cancel] at hstart
  -- with no bits in the first byte, three bytes would have been enough below 90
  have hlow : (if lead = 0xf0 then 0x90 else 0x80 : UInt8) ≤ tail (n / 64 / 64) := by
    split
    · next hfirst =>
        subst hfirst
        have hzero : n / 64 / 64 / 0x40 = 0 := Nat.add_right_cancel hlead.symm
        exact le_tail _ (by show 0x90 ≤ _; omega)
    · exact (tail_range _).1
  -- there are no characters from 110000 on, which begins with F4 90
  have hhigh : tail (n / 64 / 64) ≤ (if lead = 0xf4 then 0x8f else 0xbf : UInt8) := by
    split
    · next hlast =>
        subst hlast
        have hfour : n / 64 / 64 / 0x40 = 4 := Nat.add_right_cancel hlead.symm
        exact tail_le _ (by show _ ≤ 0x8f; omega)
    · exact (tail_range _).2
  obtain ⟨hlow', hhigh'⟩ := tail_range (n / 64)
  obtain ⟨hlow'', hhigh''⟩ := tail_range n
  rw [hnext, List.foldl_cons, advance_eq read (step_ready_of_inside hstart), List.nil_append,
    List.foldl_cons, advance_more read (n / 64 / 64) hlow hhigh,
    List.foldl_cons, advance_more read (n / 64) hlow' hhigh', List.foldl_cons]
  exact advance_last read n hlow'' hhigh''

/-- **The bytes of a character are read as that character.** -/
theorem foldl_utf8EncodeChar (c : Char) :
    (String.utf8EncodeChar c).foldl advance (read, .ready) = (some c :: read, .ready) := by
  have hvalid : c.toNat < 0xd800 ∨ 0xdfff < c.toNat ∧ c.toNat < 0x110000 := c.valid
  have hchar : Char.ofNat c.toNat = c := Char.ofNat_toNat c
  rw [String.utf8EncodeChar]
  change (if c.toNat ≤ 0x7f then _ else if c.toNat ≤ 0x7ff then _ else
    if c.toNat ≤ 0xffff then _ else _ : Bytes).foldl advance _ = _
  by_cases hone : c.toNat ≤ 0x7f
  · have hlead : (UInt8.ofNat c.toNat).toNat = c.toNat := by
      rw [UInt8.toNat_ofNat']
      omega
    have hstart := start_ascii (b := UInt8.ofNat c.toNat) (by omega)
    rw [hlead, hchar] at hstart
    rw [if_pos hone]
    exact advance_eq read (step_ready_of_char hstart)
  · rw [if_neg hone]
    by_cases htwo : c.toNat ≤ 0x7ff
    · have hread := foldl_two read (n := c.toNat) (by omega) htwo
      rw [hchar] at hread
      rw [if_pos htwo]
      exact hread
    · rw [if_neg htwo]
      by_cases hthree : c.toNat ≤ 0xffff
      · have hread := foldl_three read (n := c.toNat) (by omega) hthree (by omega)
        rw [hchar] at hread
        rw [if_pos hthree]
        exact hread
      · have hread := foldl_four read (n := c.toNat) (by omega) (by omega)
        rw [hchar] at hread
        rw [if_neg hthree]
        exact hread

end

/-! ## Texts -/

theorem foldl_encode (read : List (Option Char)) (cs : List Char) :
    (encode cs).foldl advance (read, .ready) = ((cs.map some).reverse ++ read, .ready) := by
  rw [encode]
  induction cs generalizing read with
  | nil => rfl
  | cons c cs ih =>
      rw [List.flatMap_cons, List.foldl_append, foldl_utf8EncodeChar, ih, List.map_cons,
        List.reverse_cons, List.append_assoc]
      rfl

theorem scan_encode (cs : List Char) : scan (encode cs) = cs.map some := by
  have hread := foldl_encode [] cs
  rw [List.append_nil] at hread
  rw [scan_of_ready hread, List.reverse_reverse]

/-- **A text is read back from its bytes.** -/
theorem decode?_utf8 (s : String) : decode? (utf8 s) = some s := by
  have hscan : scan (utf8 s) = s.toList.map some := scan_encode s.toList
  have hall : (s.toList.map some).all Option.isSome = true := by simp
  have hread : (s.toList.map some).filterMap id = s.toList := by simp
  show (if (scan (utf8 s)).all Option.isSome then
    some (String.ofList ((scan (utf8 s)).filterMap id)) else none) = some s
  rw [hscan, if_pos hall, hread, String.ofList_toList]

/-- The bytes of a character beyond the ASCII range are all beyond it. -/
theorem le_of_mem_utf8EncodeChar (h : b ∈ String.utf8EncodeChar c) (hc : 0x80 ≤ c.toNat) :
    0x80 ≤ b.toNat := by
  change b ∈ (if c.toNat ≤ 0x7f then _ else if c.toNat ≤ 0x7ff then _ else
    if c.toNat ≤ 0xffff then _ else _ : Bytes) at h
  rw [if_neg (by omega)] at h
  split at h
  · simp only [List.mem_cons, List.not_mem_nil, or_false] at h
    rcases h with rfl | rfl <;> rw [UInt8.toNat_ofNat'] <;> omega
  · split at h
    · simp only [List.mem_cons, List.not_mem_nil, or_false] at h
      rcases h with rfl | rfl | rfl <;> rw [UInt8.toNat_ofNat'] <;> omega
    · simp only [List.mem_cons, List.not_mem_nil, or_false] at h
      rcases h with rfl | rfl | rfl | rfl <;> rw [UInt8.toNat_ofNat'] <;> omega

/-- A byte of the ASCII range is a character of its own. -/
theorem toNat_eq_of_mem_utf8EncodeChar (h : b ∈ String.utf8EncodeChar c) (hb : b.toNat < 0x80) :
    c.toNat = b.toNat := by
  by_cases hc : 0x80 ≤ c.toNat
  · exact absurd hb (Nat.not_lt.mpr (le_of_mem_utf8EncodeChar h hc))
  · have hone : c.toNat ≤ 0x7f := Nat.le_of_lt_succ (Nat.lt_of_not_le hc)
    have hencode : String.utf8EncodeChar c = [UInt8.ofNat c.toNat] := if_pos hone
    rw [hencode, List.mem_singleton] at h
    rw [h, UInt8.toNat_ofNat']
    omega

theorem mem_toList_of_mem_utf8 {s : String} (h : c.toNat < 0x80)
    (hmem : UInt8.ofNat c.toNat ∈ utf8 s) : c ∈ s.toList := by
  obtain ⟨c', hc', hmem⟩ := List.mem_flatMap.mp hmem
  have hbyte : (UInt8.ofNat c.toNat).toNat = c.toNat := by
    rw [UInt8.toNat_ofNat']
    omega
  have heq := toNat_eq_of_mem_utf8EncodeChar hmem (by omega)
  rw [hbyte] at heq
  have hchar : c' = c := Char.toNat_inj.mp heq
  rw [← hchar]
  exact hc'

end Xsmp.Utf8
