import Xsmp.Proofs.Text.Lossy

/-!
# Only text is read

The decoder accepts the bytes of texts and nothing else: if no fault was found, then each character
that was read stands there with the bytes that it is written as.
-/

namespace Xsmp.Utf8

variable {b b₁ b₂ b₃ low high : UInt8} {left code n : Nat} {bytes : Bytes}

/-! ## Reading on from a state -/

/-- What is read of bytes from a state on, until they end. -/
def readFrom : State → Bytes → List (Option Char)
  | .ready, [] => []
  | .inside .., [] => [none]
  | state, b :: rest => (step state b).1.reverse ++ readFrom (step state b).2 rest

theorem scan_eq_readFrom (bytes : Bytes) : scan bytes = readFrom .ready bytes := by
  have hfold : ∀ (read : List (Option Char)) (state : State),
      (bytes.foldl advance (read, state)).1.reverse ++
        readFrom (bytes.foldl advance (read, state)).2 [] =
      read.reverse ++ readFrom state bytes := by
    induction bytes with
    | nil => exact fun _ _ => rfl
    | cons b rest ih =>
      intro read state
      rw [List.foldl_cons, advance, ih, List.reverse_append, List.append_assoc]
      cases state <;> rfl
  have hready := hfold [] .ready
  rw [List.reverse_nil, List.nil_append] at hready
  rw [scan_eq, ← hready]
  rcases bytes.foldl advance ([], .ready) with ⟨read, _ | _⟩ <;> simp [readFrom]

/-- Inside a character the next byte has to go on with it. -/
theorem readFrom_inside (h : none ∉ readFrom (.inside left code low high) bytes) :
    ∃ b rest, bytes = b :: rest ∧ low ≤ b ∧ b ≤ high ∧
      readFrom (.inside left code low high) bytes =
        if left ≤ 1 then some (Char.ofNat (code * 64 + (b.toNat - 0x80))) :: readFrom .ready rest
        else readFrom (.inside (left - 1) (code * 64 + (b.toNat - 0x80)) 0x80 0xbf) rest := by
  cases bytes with
  | nil => exact absurd List.mem_cons_self h
  | cons b rest =>
    by_cases hrange : low ≤ b ∧ b ≤ high
    · refine ⟨b, rest, rfl, hrange.1, hrange.2, ?_⟩
      rw [readFrom, step]
      simp only [hrange.1, hrange.2, decide_true, Bool.and_self, if_true]
      split <;> rfl
    · -- the byte shows a fault, whatever it begins
      refine absurd (List.mem_append_left _ (List.mem_reverse.mpr ?_)) h
      have hfault : (low ≤ b && b ≤ high) = false := by simpa using hrange
      simp only [step, hfault]
      rcases start b with ⟨_ | c, _ | _⟩ <;> simp

/-! ## Characters -/

theorem toNat_ofNat_of_valid (h : n < 0xd800 ∨ 0xdfff < n ∧ n < 0x110000) :
    (Char.ofNat n).toNat = n := by
  rw [Char.ofNat, dif_pos h]
  rfl

/-- A byte that goes on with a character is the tail of any number with its six bits. -/
theorem tail_eq (h : 0x80 ≤ b) (h' : b ≤ 0xbf) (hn : n % 0x40 = b.toNat - 0x80) : tail n = b := by
  rw [UInt8.le_iff_toNat_le] at h h'
  change 0x80 ≤ b.toNat at h
  change b.toNat ≤ 0xbf at h'
  rw [← UInt8.toNat_inj, toNat_tail, hn]
  omega

theorem ofNat_eq (h : n = b.toNat) : UInt8.ofNat n = b := by
  rw [h, UInt8.ofNat_toNat]

/-- The bytes of a character, each after the first one a tail. -/
theorem utf8EncodeChar_eq (c : Char) :
    String.utf8EncodeChar c =
      if c.toNat ≤ 0x7f then [UInt8.ofNat c.toNat]
      else if c.toNat ≤ 0x7ff then [UInt8.ofNat (c.toNat / 64 % 0x20 + 0xc0), tail c.toNat]
      else if c.toNat ≤ 0xffff then
        [UInt8.ofNat (c.toNat / 4096 % 0x10 + 0xe0), tail (c.toNat / 64), tail c.toNat]
      else
        [UInt8.ofNat (c.toNat / 262144 % 0x08 + 0xf0), tail (c.toNat / 4096), tail (c.toNat / 64),
          tail c.toNat] := rfl

theorem utf8EncodeChar_one (h : b.toNat < 0x80) :
    String.utf8EncodeChar (Char.ofNat b.toNat) = [b] := by
  rw [utf8EncodeChar_eq, toNat_ofNat_of_valid (by omega), if_pos (by omega), ofNat_eq rfl]

theorem utf8EncodeChar_two (hb : 0xc2 ≤ b.toNat) (hb' : b.toNat < 0xe0) (h : 0x80 ≤ b₁)
    (h' : b₁ ≤ 0xbf) :
    String.utf8EncodeChar (Char.ofNat ((b.toNat - 0xc0) * 64 + (b₁.toNat - 0x80))) = [b, b₁] := by
  have hlow : 0x80 ≤ b₁.toNat := UInt8.le_iff_toNat_le.mp h
  have hhigh : b₁.toNat ≤ 0xbf := UInt8.le_iff_toNat_le.mp h'
  rw [utf8EncodeChar_eq, toNat_ofNat_of_valid (by omega), if_neg (by omega), if_pos (by omega),
    ofNat_eq (b := b) (by omega), tail_eq h h' (by omega)]

/-- What the narrowed range of the second byte says. -/
theorem of_narrowed {first last narrowLow narrowHigh : UInt8}
    (h : (if b = first then narrowLow else 0x80) ≤ b₁)
    (h' : b₁ ≤ (if b = last then narrowHigh else 0xbf)) (hlow : 0x80 ≤ narrowLow)
    (hhigh : narrowHigh ≤ 0xbf) :
    (0x80 ≤ b₁ ∧ b₁ ≤ 0xbf) ∧ (b.toNat = first.toNat → narrowLow.toNat ≤ b₁.toNat) ∧
      (b.toNat = last.toNat → b₁.toNat ≤ narrowHigh.toNat) := by
  refine ⟨⟨?_, ?_⟩, fun hfirst => ?_, fun hlast => ?_⟩
  · refine UInt8.le_trans ?_ h
    split
    · exact hlow
    · exact UInt8.le_refl _
  · refine UInt8.le_trans h' ?_
    split
    · exact hhigh
    · exact UInt8.le_refl _
  · rw [if_pos (UInt8.toNat_inj.mp hfirst)] at h
    exact UInt8.le_iff_toNat_le.mp h
  · rw [if_pos (UInt8.toNat_inj.mp hlast)] at h'
    exact UInt8.le_iff_toNat_le.mp h'

theorem utf8EncodeChar_three (hb : 0xe0 ≤ b.toNat) (hb' : b.toNat < 0xf0)
    (h : (if b = 0xe0 then 0xa0 else 0x80) ≤ b₁) (h' : b₁ ≤ (if b = 0xed then 0x9f else 0xbf))
    (ht : 0x80 ≤ b₂) (ht' : b₂ ≤ 0xbf) :
    String.utf8EncodeChar (Char.ofNat
      (((b.toNat - 0xe0) * 64 + (b₁.toNat - 0x80)) * 64 + (b₂.toNat - 0x80))) = [b, b₁, b₂] := by
  obtain ⟨⟨hmore, hmore'⟩, hzero, hsurrogate⟩ := of_narrowed h h' (by decide) (by decide)
  change b.toNat = 0xe0 → 0xa0 ≤ b₁.toNat at hzero
  change b.toNat = 0xed → b₁.toNat ≤ 0x9f at hsurrogate
  have hlow : 0x80 ≤ b₁.toNat := UInt8.le_iff_toNat_le.mp hmore
  have hhigh : b₁.toNat ≤ 0xbf := UInt8.le_iff_toNat_le.mp hmore'
  have htlow : 0x80 ≤ b₂.toNat := UInt8.le_iff_toNat_le.mp ht
  have hthigh : b₂.toNat ≤ 0xbf := UInt8.le_iff_toNat_le.mp ht'
  rw [utf8EncodeChar_eq, toNat_ofNat_of_valid (by omega), if_neg (by omega), if_neg (by omega),
    if_pos (by omega), ofNat_eq (b := b) (by omega), tail_eq hmore hmore' (by omega),
    tail_eq ht ht' (by omega)]

theorem utf8EncodeChar_four (hb : 0xf0 ≤ b.toNat) (hb' : b.toNat ≤ 0xf4)
    (h : (if b = 0xf0 then 0x90 else 0x80) ≤ b₁) (h' : b₁ ≤ (if b = 0xf4 then 0x8f else 0xbf))
    (hs : 0x80 ≤ b₂) (hs' : b₂ ≤ 0xbf) (ht : 0x80 ≤ b₃) (ht' : b₃ ≤ 0xbf) :
    String.utf8EncodeChar (Char.ofNat
      ((((b.toNat - 0xf0) * 64 + (b₁.toNat - 0x80)) * 64 + (b₂.toNat - 0x80)) * 64 +
        (b₃.toNat - 0x80))) = [b, b₁, b₂, b₃] := by
  obtain ⟨⟨hmore, hmore'⟩, hzero, hlast⟩ := of_narrowed h h' (by decide) (by decide)
  change b.toNat = 0xf0 → 0x90 ≤ b₁.toNat at hzero
  change b.toNat = 0xf4 → b₁.toNat ≤ 0x8f at hlast
  have hlow : 0x80 ≤ b₁.toNat := UInt8.le_iff_toNat_le.mp hmore
  have hhigh : b₁.toNat ≤ 0xbf := UInt8.le_iff_toNat_le.mp hmore'
  have hslow : 0x80 ≤ b₂.toNat := UInt8.le_iff_toNat_le.mp hs
  have hshigh : b₂.toNat ≤ 0xbf := UInt8.le_iff_toNat_le.mp hs'
  have htlow : 0x80 ≤ b₃.toNat := UInt8.le_iff_toNat_le.mp ht
  have hthigh : b₃.toNat ≤ 0xbf := UInt8.le_iff_toNat_le.mp ht'
  rw [utf8EncodeChar_eq, toNat_ofNat_of_valid (by omega), if_neg (by omega), if_neg (by omega),
    if_neg (by omega), ofNat_eq (b := b) (by omega), tail_eq hmore hmore' (by omega),
    tail_eq hs hs' (by omega), tail_eq ht ht' (by omega)]

/-! ## Texts -/

/-- A byte is a character, or begins one of two, three or four bytes, or is a fault. -/
theorem start_cases (b : UInt8) :
    (b.toNat < 0x80 ∧ start b = (some (Char.ofNat b.toNat), .ready)) ∨
    start b = (none, .ready) ∨
    (0xc2 ≤ b.toNat ∧ b.toNat < 0xe0 ∧
      start b = (none, .inside 1 (b.toNat - 0xc0) 0x80 0xbf)) ∨
    (0xe0 ≤ b.toNat ∧ b.toNat < 0xf0 ∧
      start b = (none, .inside 2 (b.toNat - 0xe0) (if b = 0xe0 then 0xa0 else 0x80)
        (if b = 0xed then 0x9f else 0xbf))) ∨
    (0xf0 ≤ b.toNat ∧ b.toNat ≤ 0xf4 ∧
      start b = (none, .inside 3 (b.toNat - 0xf0) (if b = 0xf0 then 0x90 else 0x80)
        (if b = 0xf4 then 0x8f else 0xbf))) := by
  by_cases hone : b.toNat < 0x80
  · exact .inl ⟨hone, start_ascii hone⟩
  by_cases htail : b.toNat < 0xc2
  · refine .inr (.inl ?_)
    rw [start, if_neg (not_lt_of_toNat_le (Nat.le_of_not_lt hone)),
      if_pos (UInt8.lt_iff_toNat_lt.mpr htail)]
  by_cases htwo : b.toNat < 0xe0
  · exact .inr (.inr (.inl ⟨Nat.le_of_not_lt htail, htwo, start_two (Nat.le_of_not_lt htail) htwo⟩))
  by_cases hthree : b.toNat < 0xf0
  · exact .inr (.inr (.inr (.inl
      ⟨Nat.le_of_not_lt htwo, hthree, start_three (Nat.le_of_not_lt htwo) hthree⟩)))
  by_cases hfour : b.toNat ≤ 0xf4
  · exact .inr (.inr (.inr (.inr
      ⟨Nat.le_of_not_lt hthree, hfour, start_four (Nat.le_of_not_lt hthree) hfour⟩)))
  · refine .inr (.inl ?_)
    have hlt : ∀ k : UInt8, k.toNat ≤ 0xf4 → ¬ b < k := fun k hk =>
      not_lt_of_toNat_le (by omega)
    have hne : ∀ k : UInt8, k.toNat ≤ 0xf4 → b ≠ k := fun k hk heq => hfour (heq ▸ hk)
    rw [start, if_neg (hlt _ (by decide)), if_neg (hlt _ (by decide)), if_neg (hlt _ (by decide)),
      if_neg (hne _ (by decide)), if_neg (hne _ (by decide)), if_neg (hlt _ (by decide)),
      if_neg (hne _ (by decide)), if_neg (hlt _ (by decide)), if_neg (hne _ (by decide))]

theorem readFrom_begun {next : State} (h : start b = (none, next)) (hnext : next ≠ .ready)
    (rest : Bytes) : readFrom .ready (b :: rest) = readFrom next rest := by
  rw [readFrom, step]
  cases next with
  | ready => exact absurd rfl hnext
  | inside => simp [h]

/-- Where there is no fault, a character stands first. -/
theorem exists_first {rest : Bytes} (h : none ∉ readFrom .ready (b :: rest)) :
    ∃ c after, b :: rest = String.utf8EncodeChar c ++ after ∧
      readFrom .ready (b :: rest) = some c :: readFrom .ready after := by
  rcases start_cases b with ⟨hb, hstart⟩ | hstart | ⟨hb, hb', hstart⟩ | ⟨hb, hb', hstart⟩ |
    ⟨hb, hb', hstart⟩
  · refine ⟨Char.ofNat b.toNat, rest, by rw [utf8EncodeChar_one hb]; rfl, ?_⟩
    simp [readFrom, step, hstart]
  · exact absurd (by simp [readFrom, step, hstart]) h
  · rw [readFrom_begun hstart State.noConfusion] at h ⊢
    obtain ⟨b₁, after, rfl, hlow, hhigh, hread⟩ := readFrom_inside h
    exact ⟨_, after, by rw [utf8EncodeChar_two hb hb' hlow hhigh]; rfl, hread⟩
  · rw [readFrom_begun hstart State.noConfusion] at h ⊢
    obtain ⟨b₁, after', rfl, hlow, hhigh, hread⟩ := readFrom_inside h
    rw [hread, if_neg (by decide)] at h ⊢
    obtain ⟨b₂, after, rfl, hlow', hhigh', hread'⟩ := readFrom_inside h
    exact ⟨_, after, by rw [utf8EncodeChar_three hb hb' hlow hhigh hlow' hhigh']; rfl, hread'⟩
  · rw [readFrom_begun hstart State.noConfusion] at h ⊢
    obtain ⟨b₁, after', rfl, hlow, hhigh, hread⟩ := readFrom_inside h
    rw [hread, if_neg (by decide)] at h ⊢
    obtain ⟨b₂, after'', rfl, hlow', hhigh', hread'⟩ := readFrom_inside h
    rw [hread', if_neg (by decide)] at h ⊢
    obtain ⟨b₃, after, rfl, hlow'', hhigh'', hread''⟩ := readFrom_inside h
    exact ⟨_, after,
      by rw [utf8EncodeChar_four hb hb' hlow hhigh hlow' hhigh' hlow'' hhigh'']; rfl, hread''⟩

/-- Without a fault, what is read are characters, and the bytes are those they are written as. -/
theorem exists_encode (bytes : Bytes) (h : none ∉ readFrom .ready bytes) :
    ∃ cs, bytes = encode cs ∧ readFrom .ready bytes = cs.map some := by
  match bytes with
  | [] => exact ⟨[], rfl, rfl⟩
  | b :: rest =>
    obtain ⟨c, after, hbytes, hread⟩ := exists_first h
    have hshorter : after.length < (b :: rest).length := by
      have hpos := List.length_pos_iff.mpr (String.utf8EncodeChar_ne_nil (c := c))
      rw [hbytes, List.length_append]
      omega
    rw [hread] at h
    obtain ⟨cs, hcs, hafter⟩ := exists_encode after fun hmem => h (List.mem_cons_of_mem _ hmem)
    refine ⟨c :: cs, ?_, by rw [hread, hafter, List.map_cons]⟩
    rw [hbytes, hcs, encode, encode, List.flatMap_cons]
termination_by bytes.length
decreasing_by exact hshorter

/-- **The decoder accepts exactly the bytes of texts.** -/
theorem decode?_eq_some_iff {s : String} : decode? bytes = some s ↔ utf8 s = bytes := by
  constructor
  · intro h
    rw [decode?] at h
    split at h
    · next hall =>
      rw [scan_eq_readFrom] at hall h
      obtain ⟨cs, rfl, hread⟩ := exists_encode bytes fun hmem => by
        simpa using List.all_eq_true.mp hall none hmem
      rw [hread] at h
      obtain rfl : String.ofList cs = s := by simpa using h
      rw [utf8, String.toList_ofList]
    · cases h
  · rintro rfl
    exact decode?_utf8 s

end Xsmp.Utf8
