import Xsmp.Proofs.Text.Decoded

/-!
# The order of texts and of their bytes

Texts are ordered by their characters, and their bytes stand in the same order. A
character with more bytes begins with a higher byte, and of two characters with as many bytes the
first byte that differs decides as their numbers do.
-/

namespace Xsmp.Utf8

/-- The order of bytes as a dictionary has it. -/
def Before : Bytes → Bytes → Prop := List.Lex fun b b' => b.toNat < b'.toNat

theorem Before.append_left {bytes bytes' : Bytes} (h : Before bytes bytes') (same : Bytes) :
    Before (same ++ bytes) (same ++ bytes') := by
  induction same with
  | nil => exact h
  | cons b same ih => exact .cons ih

/-- Whatever follows the one and the other, the order is known. -/
def Decides (bytes bytes' : Bytes) : Prop :=
  ∀ rest rest' : Bytes, Before (bytes ++ rest) (bytes' ++ rest')

variable {bytes bytes' : Bytes} {b b' : UInt8} {n m : Nat}

theorem decides_of_lt (h : b.toNat < b'.toNat) : Decides (b :: bytes) (b' :: bytes') :=
  fun _ _ => .rel h

/-- The last six bits decide if all before them are the same. -/
theorem decides_tail (bytes bytes' : Bytes) (h : n < m)
    (hlt : n / 64 < m / 64 → Decides bytes bytes') (heq : n / 64 = m / 64 → bytes = bytes') :
    Decides (bytes ++ [tail n]) (bytes' ++ [tail m]) := by
  intro rest rest'
  rw [List.append_assoc, List.append_assoc]
  have hle : n / 64 ≤ m / 64 := Nat.div_le_div_right (Nat.le_of_lt h)
  rcases Nat.lt_or_eq_of_le hle with hdiv | hdiv
  · exact hlt hdiv _ _
  · have htail : (tail n).toNat < (tail m).toNat := by
      rw [toNat_tail, toNat_tail]
      omega
    rw [heq hdiv]
    exact Before.append_left (.rel htail) bytes'

theorem decides_two (h : n < m) (hm : m ≤ 0x7ff) :
    Decides [UInt8.ofNat (n / 64 % 0x20 + 0xc0), tail n]
      [UInt8.ofNat (m / 64 % 0x20 + 0xc0), tail m] := by
  refine decides_tail [_] [_] h (fun hlt => decides_of_lt ?_) fun heq => by rw [heq]
  rw [UInt8.toNat_ofNat', UInt8.toNat_ofNat']
  omega

theorem decides_three (h : n < m) (hm : m ≤ 0xffff) :
    Decides [UInt8.ofNat (n / 4096 % 0x10 + 0xe0), tail (n / 64), tail n]
      [UInt8.ofNat (m / 4096 % 0x10 + 0xe0), tail (m / 64), tail m] := by
  have hlead : ∀ k, k / 4096 = k / 64 / 64 := by omega
  rw [hlead n, hlead m]
  refine decides_tail [_, _] [_, _] h (fun hlt => ?_) fun heq => by rw [heq]
  refine decides_tail [_] [_] hlt (fun hlt' => decides_of_lt ?_) fun heq => by rw [heq]
  rw [UInt8.toNat_ofNat', UInt8.toNat_ofNat']
  omega

theorem decides_four (h : n < m) (hm : m < 0x110000) :
    Decides
      [UInt8.ofNat (n / 262144 % 0x08 + 0xf0), tail (n / 4096), tail (n / 64), tail n]
      [UInt8.ofNat (m / 262144 % 0x08 + 0xf0), tail (m / 4096), tail (m / 64), tail m] := by
  have hlead : ∀ k, k / 262144 = k / 64 / 64 / 64 := by omega
  have hnext : ∀ k, k / 4096 = k / 64 / 64 := by omega
  rw [hlead n, hlead m, hnext n, hnext m]
  refine decides_tail [_, _, _] [_, _, _] h (fun hlt => ?_) fun heq => by rw [heq]
  refine decides_tail [_, _] [_, _] hlt (fun hlt' => ?_) fun heq => by rw [heq]
  refine decides_tail [_] [_] hlt' (fun hlt'' => decides_of_lt ?_) fun heq => by rw [heq]
  rw [UInt8.toNat_ofNat', UInt8.toNat_ofNat']
  omega

/-- The bytes of two characters are ordered as the characters are. -/
theorem decides_utf8EncodeChar {c d : Char} (h : c.toNat < d.toNat) :
    Decides (String.utf8EncodeChar c) (String.utf8EncodeChar d) := by
  have hvalid : d.toNat < 0xd800 ∨ 0xdfff < d.toNat ∧ d.toNat < 0x110000 := d.valid
  rw [utf8EncodeChar_eq, utf8EncodeChar_eq]
  generalize c.toNat = n at h
  generalize d.toNat = m at h hvalid
  -- with more bytes the first one is higher
  have hfirst : ∀ k l : Nat, k % 256 < l % 256 → (UInt8.ofNat k).toNat < (UInt8.ofNat l).toNat := by
    intro k l hkl
    rwa [UInt8.toNat_ofNat', UInt8.toNat_ofNat']
  by_cases hone : m ≤ 0x7f
  · rw [if_pos (by omega), if_pos hone]
    exact decides_of_lt (hfirst _ _ (by omega))
  rw [if_neg hone]
  by_cases hone' : n ≤ 0x7f
  · rw [if_pos hone']
    split
    · exact decides_of_lt (hfirst _ _ (by omega))
    · split
      · exact decides_of_lt (hfirst _ _ (by omega))
      · exact decides_of_lt (hfirst _ _ (by omega))
  rw [if_neg hone']
  by_cases htwo : m ≤ 0x7ff
  · rw [if_pos (by omega), if_pos htwo]
    exact decides_two h htwo
  rw [if_neg htwo]
  by_cases htwo' : n ≤ 0x7ff
  · rw [if_pos htwo']
    split
    · exact decides_of_lt (hfirst _ _ (by omega))
    · exact decides_of_lt (hfirst _ _ (by omega))
  rw [if_neg htwo']
  by_cases hthree : m ≤ 0xffff
  · rw [if_pos (by omega), if_pos hthree]
    exact decides_three h hthree
  rw [if_neg hthree]
  by_cases hthree' : n ≤ 0xffff
  · rw [if_pos hthree']
    exact decides_of_lt (hfirst _ _ (by omega))
  · rw [if_neg hthree']
    exact decides_four h (by omega)

theorem before_encode {cs ds : List Char} (h : cs < ds) : Before (encode cs) (encode ds) := by
  induction h with
  | @nil d ds =>
    obtain ⟨b, rest, hd⟩ := List.exists_cons_of_ne_nil (String.utf8EncodeChar_ne_nil (c := d))
    rw [encode, encode, List.flatMap_cons, hd]
    exact .nil
  | rel h => exact decides_utf8EncodeChar (Char.lt_def.mp h) _ _
  | cons h ih => exact ih.append_left _

/-- **Texts stand in the order of their bytes.** -/
theorem before_utf8 {s t : String} (h : s < t) : Before (utf8 s) (utf8 t) :=
  before_encode (String.lt_iff.mp h)

end Xsmp.Utf8
