import Xsmp.Authority.Entry
import Xsmp.Proofs.Text.Lossy

/-!
# Entries and their bytes

A field says how long it is, so bytes are read as entries in one way at most: an authority
file that can be read is the bytes of one list of raw entries, whose fields are kept as they
stand in the file. What the program keeps of a raw entry is its text as far as it is text, and
what it writes for it are the bytes of that text.
-/

namespace Xsmp

/-- The bytes of one field. -/
abbrev EntryField : Type := { value : Bytes // value.length ≤ AuthorityEntry.maxField }

/-- An entry as it stands in a file. -/
structure RawEntry where
  protocolName : EntryField
  protocolData : EntryField
  networkId : EntryField
  authName : EntryField
  authData : EntryField
  deriving DecidableEq

namespace AuthorityEntry

variable {contents value rest rest' : Bytes}

/-! ## One field -/

/-- What of a value is written. -/
def cut (value : Bytes) : EntryField :=
  ⟨value.take maxField, List.length_take ▸ Nat.min_le_left _ _⟩

theorem cut_of_le (h : value.length ≤ maxField) : cut value = ⟨value, h⟩ :=
  Subtype.ext (List.take_of_length_le h)

theorem encodeField_cut (value : Bytes) : encodeField (cut value).1 = encodeField value := by
  simp only [encodeField, cut, List.take_take, Nat.min_self]

theorem encodeField_of_le (h : value.length ≤ maxField) :
    encodeField value =
      UInt8.ofNat (value.length / 256) :: UInt8.ofNat (value.length % 256) :: value := by
  simp only [encodeField, List.take_of_length_le h]

/-- The length in front of a field is the length of the field. -/
theorem toNat_length {n : Nat} (h : n ≤ maxField) :
    (UInt8.ofNat (n / 256)).toNat * 256 + (UInt8.ofNat (n % 256)).toNat = n := by
  have hmax : n ≤ 65535 := h
  rw [UInt8.toNat_ofNat', UInt8.toNat_ofNat']
  omega

theorem field?_eq_some_iff :
    field? contents = some (value, rest) ↔
      value.length ≤ maxField ∧ contents = encodeField value ++ rest := by
  constructor
  · intro h
    unfold field? at h
    split at h
    · rename_i high low tail
      simp only [Option.ite_none_left_eq_some, Nat.not_lt, Option.some.injEq,
        Prod.mk.injEq] at h
      obtain ⟨hlength, rfl, rfl⟩ := h
      have hhigh := high.toNat_lt
      have hlow := low.toNat_lt
      have htake : (tail.take (high.toNat * 256 + low.toNat)).length =
          high.toNat * 256 + low.toNat :=
        Nat.le_antisymm (List.length_take_le _ _) hlength
      have hmax : (tail.take (high.toNat * 256 + low.toNat)).length ≤ maxField := by
        rw [htake]
        show _ ≤ 65535
        omega
      refine ⟨hmax, ?_⟩
      have hdiv : (high.toNat * 256 + low.toNat) / 256 = high.toNat := by omega
      have hmod : (high.toNat * 256 + low.toNat) % 256 = low.toNat := by omega
      rw [encodeField_of_le hmax, htake, hdiv, hmod, UInt8.ofNat_toNat, UInt8.ofNat_toNat,
        List.cons_append, List.cons_append, List.take_append_drop]
    · cases h
  · rintro ⟨hmax, rfl⟩
    rw [encodeField_of_le hmax, List.cons_append, List.cons_append, field?]
    simp only [toNat_length hmax, List.take_left', List.drop_left', Nat.lt_irrefl, if_false]

/-- A field is read back, as much of it as is written. -/
theorem field?_encodeField (value rest : Bytes) :
    field? (encodeField value ++ rest) = some ((cut value).1, rest) :=
  field?_eq_some_iff.mpr ⟨(cut value).2, by rw [encodeField_cut]⟩

/-- Where a field ends is written in front of it. -/
theorem encodeField_append_inj {field field' : EntryField}
    (h : encodeField field.1 ++ rest = encodeField field'.1 ++ rest') :
    field = field' ∧ rest = rest' := by
  have hread := field?_encodeField field.1 rest
  rw [h, field?_encodeField field'.1 rest', Option.some.injEq, Prod.mk.injEq,
    cut_of_le field.2, cut_of_le field'.2] at hread
  exact ⟨(Subtype.ext hread.1).symm, hread.2.symm⟩

end AuthorityEntry

namespace RawEntry

open AuthorityEntry

variable {raw raw' : RawEntry} {raws raws' : List RawEntry} {contents rest rest' : Bytes}

/-! ## One entry -/

/-- An entry in a file. -/
def bytes (raw : RawEntry) : Bytes :=
  encodeField raw.protocolName.1 ++ encodeField raw.protocolData.1
    ++ encodeField raw.networkId.1 ++ encodeField raw.authName.1 ++ encodeField raw.authData.1

/-- What is kept of an entry in a file. -/
def entry (raw : RawEntry) : AuthorityEntry where
  protocolName := Utf8.decodeLossy raw.protocolName.1
  protocolData := raw.protocolData.1
  networkId := Utf8.decodeLossy raw.networkId.1
  authName := Utf8.decodeLossy raw.authName.1
  authData := raw.authData.1

/-- The fields that are written for an entry. -/
def ofEntry (entry : AuthorityEntry) : RawEntry where
  protocolName := cut (utf8 entry.protocolName)
  protocolData := cut entry.protocolData
  networkId := cut (utf8 entry.networkId)
  authName := cut (utf8 entry.authName)
  authData := cut entry.authData

theorem bytes_ofEntry (entry : AuthorityEntry) : (ofEntry entry).bytes = entry.encode := by
  simp only [bytes, ofEntry, encodeField_cut, encode]

theorem encodeAll_eq (entries : List AuthorityEntry) :
    encodeAll entries = (entries.map ofEntry).flatMap bytes := by
  rw [encodeAll, List.flatMap_map]
  exact congrArg (List.flatMap · entries) (funext fun entry => (bytes_ofEntry entry).symm)

theorem bytes_ne_nil (raw : RawEntry) : raw.bytes ≠ [] := by
  simp [bytes, encodeField]

/-- Where an entry ends is written in it. -/
theorem bytes_append_inj (h : raw.bytes ++ rest = raw'.bytes ++ rest') :
    raw = raw' ∧ rest = rest' := by
  simp only [bytes, List.append_assoc] at h
  obtain ⟨h₁, h⟩ := encodeField_append_inj h
  obtain ⟨h₂, h⟩ := encodeField_append_inj h
  obtain ⟨h₃, h⟩ := encodeField_append_inj h
  obtain ⟨h₄, h⟩ := encodeField_append_inj h
  obtain ⟨h₅, h⟩ := encodeField_append_inj h
  refine ⟨?_, h⟩
  cases raw
  cases raw'
  congr

/-- An entry is read where the bytes of one stand. -/
theorem decodeOne?_eq_some_iff {entry : AuthorityEntry} :
    decodeOne? contents = some (entry, rest) ↔
      ∃ raw : RawEntry, contents = raw.bytes ++ rest ∧ entry = raw.entry := by
  constructor
  · intro h
    simp only [decodeOne?, Option.bind_eq_bind, Option.bind_eq_some_iff, Prod.exists,
      Option.pure_def, Option.some.injEq, Prod.mk.injEq] at h
    obtain ⟨name, r₁, h₁, data, r₂, h₂, id, r₃, h₃, auth, r₄, h₄, secret, r₅, h₅, rfl, rfl⟩ := h
    obtain ⟨l₁, rfl⟩ := field?_eq_some_iff.mp h₁
    obtain ⟨l₂, rfl⟩ := field?_eq_some_iff.mp h₂
    obtain ⟨l₃, rfl⟩ := field?_eq_some_iff.mp h₃
    obtain ⟨l₄, rfl⟩ := field?_eq_some_iff.mp h₄
    obtain ⟨l₅, rfl⟩ := field?_eq_some_iff.mp h₅
    refine ⟨⟨⟨name, l₁⟩, ⟨data, l₂⟩, ⟨id, l₃⟩, ⟨auth, l₄⟩, ⟨secret, l₅⟩⟩, ?_, rfl⟩
    simp only [RawEntry.bytes, List.append_assoc]
  · rintro ⟨raw, rfl, rfl⟩
    simp only [RawEntry.bytes, List.append_assoc, decodeOne?, field?_encodeField, cut_of_le,
      raw.protocolName.2, raw.protocolData.2, raw.networkId.2, raw.authName.2, raw.authData.2,
      Option.bind_eq_bind, Option.bind_some, Option.pure_def, RawEntry.entry]

/-! ## All entries -/

theorem decodeAll?_append (raw : RawEntry) (rest : Bytes) :
    decodeAll? (raw.bytes ++ rest) = (decodeAll? rest).map (raw.entry :: ·) := by
  have hone : decodeOne? (raw.bytes ++ rest) = some (raw.entry, rest) :=
    decodeOne?_eq_some_iff.mpr ⟨raw, rfl, rfl⟩
  have hempty : (raw.bytes ++ rest).isEmpty = false := by
    simp [raw.bytes_ne_nil]
  rw [decodeAll?, hempty, if_neg Bool.false_ne_true]
  split
  · rename_i hnone
    rw [hone] at hnone
    cases hnone
  · rename_i entry' rest' hsome
    rw [hone] at hsome
    cases hsome
    rfl

/-- **What can be read is the bytes of raw entries**, and each of them is read as what is kept
of it. -/
theorem decodeAll?_eq_some_iff {entries : List AuthorityEntry} :
    decodeAll? contents = some entries ↔
      ∃ raws : List RawEntry, contents = raws.flatMap RawEntry.bytes ∧
        entries = raws.map RawEntry.entry := by
  constructor
  · intro h
    fun_induction decodeAll? contents generalizing entries with
    | case1 contents hempty =>
      cases h
      exact ⟨[], List.isEmpty_iff.mp hempty, rfl⟩
    | case2 => cases h
    | case3 contents hempty entry rest hone hshorter ih =>
      obtain ⟨others, hothers, rfl⟩ := Option.map_eq_some_iff.mp h
      obtain ⟨raws, hrest, rfl⟩ := ih hothers
      obtain ⟨raw, rfl, rfl⟩ := decodeOne?_eq_some_iff.mp hone
      exact ⟨raw :: raws, by rw [List.flatMap_cons, hrest], rfl⟩
  · rintro ⟨raws, rfl, rfl⟩
    induction raws with
    | nil => rw [decodeAll?]; rfl
    | cons raw raws ih => rw [List.flatMap_cons, decodeAll?_append, ih]; rfl

/-- The raw entries of a file are in no two ways the same bytes. -/
theorem flatMap_bytes_injective (h : raws.flatMap bytes = raws'.flatMap bytes) : raws = raws' := by
  induction raws generalizing raws' with
  | nil =>
    cases raws' with
    | nil => rfl
    | cons raw' raws' =>
      rw [List.flatMap_nil, List.flatMap_cons] at h
      exact absurd (List.append_eq_nil_iff.mp h.symm).1 raw'.bytes_ne_nil
  | cons raw raws ih =>
    cases raws' with
    | nil =>
      rw [List.flatMap_nil, List.flatMap_cons] at h
      exact absurd (List.append_eq_nil_iff.mp h).1 raw.bytes_ne_nil
    | cons raw' raws' =>
      rw [List.flatMap_cons, List.flatMap_cons] at h
      obtain ⟨rfl, hrest⟩ := bytes_append_inj h
      rw [ih hrest]

end RawEntry

/-! ## What is written back -/

namespace AuthorityEntry

/-- The bytes of a text, all of them; or the longest field there is, cut inside a replacement
character at its end. -/
def Lossless (field : EntryField) : Prop :=
  (∃ s, field.1 = utf8 s) ∨
    field.1.length = maxField ∧
      ∃ s, field.1 = utf8 s ++ [0xef] ∨ field.1 = utf8 s ++ [0xef, 0xbf]

theorem utf8EncodeChar_replacement : String.utf8EncodeChar '\ufffd' = [0xef, 0xbf, 0xbd] := by
  decide +kernel

/-- A field cut inside a replacement character is read with that character. -/
theorem cut_of_replacement {field : EntryField} {s : String} {before after : Bytes}
    (hlength : field.1.length = maxField) (hfield : field.1 = utf8 s ++ before)
    (hcut : String.utf8EncodeChar '\ufffd' = before ++ after) (hbefore : before ≠ [])
    (hafter : after ≠ []) : cut (utf8 (Utf8.decodeLossy field.1)) = field := by
  have hwhole : utf8 "\ufffd" = before ++ after := by
    rw [← hcut, utf8EncodeChar_replacement]
    decide +kernel
  refine Subtype.ext ?_
  show (utf8 (Utf8.decodeLossy field.1)).take maxField = field.1
  rw [hfield, Utf8.decodeLossy_cut s hcut hbefore hafter, Utf8.utf8_append, hwhole,
    ← List.append_assoc, ← hfield]
  exact List.take_left' hlength

/-- **Which fields are written back as they are read.** -/
theorem cut_decodeLossy_iff (field : EntryField) :
    cut (utf8 (Utf8.decodeLossy field.1)) = field ↔ Lossless field := by
  constructor
  · intro h
    have htake : (utf8 (Utf8.decodeLossy field.1)).take maxField = field.1 := congrArg (·.1) h
    by_cases hfits : (utf8 (Utf8.decodeLossy field.1)).length ≤ maxField
    · exact .inl ⟨_, (List.take_of_length_le hfits ▸ htake).symm⟩
    · rcases Utf8.take_encode (Utf8.decodeLossy field.1).toList maxField with
        ⟨whole, hwhole⟩ | ⟨whole, c, rest, before, after, hread, hcut, hbefore, hafter, hpart⟩
      · refine .inl ⟨String.ofList whole, ?_⟩
        rw [← htake, utf8, utf8, hwhole, String.toList_ofList]
      · -- the character that is cut is the replacement that is read for its first bytes
        have hfield : field.1 = utf8 (String.ofList whole) ++ before := by
          rw [← htake, utf8, hpart, utf8, String.toList_ofList]
        rw [hfield, Utf8.decodeLossy_cut _ hcut hbefore hafter, String.toList_append,
          String.toList_ofList, List.append_cancel_left_eq] at hread
        have hlist : "\ufffd".toList = ['\ufffd'] := by decide +kernel
        rw [hlist] at hread
        rw [← (List.cons.inj hread).1, utf8EncodeChar_replacement] at hcut
        refine .inr ⟨?_, String.ofList whole, ?_⟩
        · rw [← htake, List.length_take]
          exact Nat.min_eq_left (Nat.le_of_not_le hfits)
        · obtain ⟨h, -⟩ | ⟨before, rfl, hsecond⟩ := List.cons_eq_append_iff.mp hcut
          · exact absurd h hbefore
          obtain ⟨rfl, -⟩ | ⟨before, rfl, hthird⟩ := List.cons_eq_append_iff.mp hsecond
          · exact .inl hfield
          obtain ⟨rfl, -⟩ | ⟨before, rfl, hnone⟩ := List.cons_eq_append_iff.mp hthird
          · exact .inr hfield
          · exact absurd (List.append_eq_nil_iff.mp hnone.symm).2 hafter
  · rintro (⟨s, hfield⟩ | ⟨hlength, s, hfield | hfield⟩)
    · refine Subtype.ext ?_
      show (utf8 (Utf8.decodeLossy field.1)).take maxField = field.1
      rw [hfield, Utf8.decodeLossy_utf8, ← hfield]
      exact List.take_of_length_le field.2
    · exact cut_of_replacement hlength hfield utf8EncodeChar_replacement (List.cons_ne_nil _ _)
        (List.cons_ne_nil 0xbf [0xbd])
    · exact cut_of_replacement hlength hfield utf8EncodeChar_replacement (List.cons_ne_nil _ _)
        (List.cons_ne_nil 0xbd [])

end AuthorityEntry

namespace RawEntry

open AuthorityEntry

variable {raw : RawEntry} {raws : List RawEntry} {networkId : String}

/-- Whether the texts of an entry are written back as they are read. -/
structure Lossless (raw : RawEntry) : Prop where
  protocolName : AuthorityEntry.Lossless raw.protocolName
  networkId : AuthorityEntry.Lossless raw.networkId
  authName : AuthorityEntry.Lossless raw.authName

theorem ofEntry_entry_iff : ofEntry raw.entry = raw ↔ raw.Lossless := by
  obtain ⟨protocolName, protocolData, networkId, authName, authData⟩ := raw
  have hsame : ofEntry (RawEntry.mk protocolName protocolData networkId authName authData).entry =
      ⟨cut (utf8 (Utf8.decodeLossy protocolName.1)), protocolData,
        cut (utf8 (Utf8.decodeLossy networkId.1)), cut (utf8 (Utf8.decodeLossy authName.1)),
        authData⟩ := by
    simp only [ofEntry, entry, cut_of_le protocolData.2, cut_of_le authData.2]
  rw [hsame, RawEntry.mk.injEq, cut_decodeLossy_iff, cut_decodeLossy_iff, cut_decodeLossy_iff]
  exact ⟨fun ⟨h₁, _, h₂, h₃, _⟩ => ⟨h₁, h₂, h₃⟩, fun ⟨h₁, h₂, h₃⟩ => ⟨h₁, rfl, h₂, h₃, rfl⟩⟩

end RawEntry

end Xsmp
