import Xsmp.Proofs.Authority.Entry
import Mathlib.Data.List.Forall2

/-!
# The format of an authority file

What the program reads is set against the format itself, which says nothing of how a file is
read or written: a field is two bytes that give a length and then as many bytes, an entry is
five fields, a file is any number of entries. A file of this format is read entry by entry, and
nothing else is read at all; where bytes break off inside an entry there is no result, whatever
stands before it.

A length that does not fit into two bytes cannot be written. The value is cut to the longest
that can, together with its length, so what follows a field is still found behind it. A text may
be cut inside a character, and then ends in a replacement character when it is read again.
-/

namespace Xsmp

namespace AuthorityEntry

variable {value contents bytes part rest : Bytes} {entry : AuthorityEntry}
  {entries : List AuthorityEntry} {groups : List Bytes}

/-! ## The format -/

/-- The bytes of a field with the given value: how long it is, the high byte first, and then
the value. -/
inductive FieldBytes (value : Bytes) : Bytes → Prop
  | mk {high low : UInt8} (length : high.toNat * 256 + low.toNat = value.length) :
    FieldBytes value (high :: low :: value)

/-- The bytes of a complete entry, and the entry that they are read as: five fields, three of
which are taken for text. -/
inductive EntryBytes : AuthorityEntry → Bytes → Prop
  | mk {name data id auth secret name' data' id' auth' secret' : Bytes}
    (protocolName : FieldBytes name name') (protocolData : FieldBytes data data')
    (networkId : FieldBytes id id') (authName : FieldBytes auth auth')
    (authData : FieldBytes secret secret') :
    EntryBytes
      { protocolName := Utf8.decodeLossy name
        protocolData := data
        networkId := Utf8.decodeLossy id
        authName := Utf8.decodeLossy auth
        authData := secret }
      (name' ++ data' ++ id' ++ auth' ++ secret')

/-- The fields of the format are the values that can be written. -/
theorem fieldBytes_iff :
    FieldBytes value bytes ↔ value.length ≤ maxField ∧ bytes = encodeField value := by
  constructor
  · rintro @⟨high, low, hlength⟩
    have hhigh := high.toNat_lt
    have hlow := low.toNat_lt
    have hmax : value.length ≤ maxField := by
      rw [← hlength]
      show _ ≤ 65535
      omega
    have hdiv : value.length / 256 = high.toNat := by omega
    have hmod : value.length % 256 = low.toNat := by omega
    rw [encodeField_of_le hmax, hdiv, hmod, UInt8.ofNat_toNat, UInt8.ofNat_toNat]
    exact ⟨hmax, rfl⟩
  · rintro ⟨hmax, rfl⟩
    rw [encodeField_of_le hmax]
    exact .mk (toNat_length hmax)

/-- The entries of the format are the raw entries. -/
theorem entryBytes_iff :
    EntryBytes entry bytes ↔ ∃ raw : RawEntry, entry = raw.entry ∧ bytes = raw.bytes := by
  constructor
  · rintro @⟨name, data, id, auth, secret, _, _, _, _, _, hname, hdata, hid, hauth, hsecret⟩
    obtain ⟨l₁, rfl⟩ := fieldBytes_iff.mp hname
    obtain ⟨l₂, rfl⟩ := fieldBytes_iff.mp hdata
    obtain ⟨l₃, rfl⟩ := fieldBytes_iff.mp hid
    obtain ⟨l₄, rfl⟩ := fieldBytes_iff.mp hauth
    obtain ⟨l₅, rfl⟩ := fieldBytes_iff.mp hsecret
    exact ⟨⟨⟨name, l₁⟩, ⟨data, l₂⟩, ⟨id, l₃⟩, ⟨auth, l₄⟩, ⟨secret, l₅⟩⟩, rfl, rfl⟩
  · rintro ⟨raw, rfl, rfl⟩
    exact .mk (fieldBytes_iff.mpr ⟨raw.protocolName.2, rfl⟩)
      (fieldBytes_iff.mpr ⟨raw.protocolData.2, rfl⟩) (fieldBytes_iff.mpr ⟨raw.networkId.2, rfl⟩)
      (fieldBytes_iff.mpr ⟨raw.authName.2, rfl⟩) (fieldBytes_iff.mpr ⟨raw.authData.2, rfl⟩)

theorem forall₂_entryBytes_iff :
    List.Forall₂ EntryBytes entries groups ↔
      ∃ raws : List RawEntry, entries = raws.map RawEntry.entry ∧
        groups = raws.map RawEntry.bytes := by
  constructor
  · intro h
    induction h with
    | nil => exact ⟨[], rfl, rfl⟩
    | cons hone _ ih =>
      obtain ⟨raw, rfl, rfl⟩ := entryBytes_iff.mp hone
      obtain ⟨raws, rfl, rfl⟩ := ih
      exact ⟨raw :: raws, rfl, rfl⟩
  · rintro ⟨raws, rfl, rfl⟩
    induction raws with
    | nil => exact .nil
    | cons raw raws ih => exact .cons (entryBytes_iff.mpr ⟨raw, rfl, rfl⟩) ih

/-! ## Reading -/

/-- Bytes are read if they are complete entries, and then as these. -/
theorem decodeAll?_eq_some_iff_forall₂ :
    decodeAll? contents = some entries ↔
      ∃ groups, contents = groups.flatten ∧ List.Forall₂ EntryBytes entries groups := by
  rw [RawEntry.decodeAll?_eq_some_iff]
  constructor
  · rintro ⟨raws, rfl, rfl⟩
    exact ⟨raws.map RawEntry.bytes, List.flatMap_def, forall₂_entryBytes_iff.mpr ⟨raws, rfl, rfl⟩⟩
  · rintro ⟨groups, rfl, hgroups⟩
    obtain ⟨raws, rfl, rfl⟩ := forall₂_entryBytes_iff.mp hgroups
    exact ⟨raws, List.flatMap_def.symm, rfl⟩

/-- Complete entries in front are read by themselves. -/
theorem decodeAll?_flatten_append (h : List.Forall₂ EntryBytes entries groups) :
    decodeAll? (groups.flatten ++ contents) = (decodeAll? contents).map (entries ++ ·) := by
  induction h with
  | nil => exact (Option.map_id_apply ..).symm
  | cons hone _ ih =>
    obtain ⟨raw, rfl, rfl⟩ := entryBytes_iff.mp hone
    rw [List.flatten_cons, List.append_assoc, RawEntry.decodeAll?_append, ih, Option.map_map]
    rfl

/-- No entry begins with all the bytes of entries and goes on behind them. -/
theorem decodeAll?_of_inside (h : EntryBytes entry (part ++ rest)) (hpart : part ≠ [])
    (hrest : rest ≠ []) : decodeAll? part = none := by
  obtain ⟨raw, -, hraw⟩ := entryBytes_iff.mp h
  rw [Option.eq_none_iff_forall_ne_some]
  intro entries hread
  obtain ⟨raws, rfl, -⟩ := RawEntry.decodeAll?_eq_some_iff.mp hread
  cases raws with
  | nil => exact hpart rfl
  | cons first others =>
    have hsame : first.bytes ++ (others.flatMap RawEntry.bytes ++ rest) = raw.bytes ++ [] := by
      rw [← hraw, List.append_nil, List.flatMap_cons, List.append_assoc]
    exact hrest (List.append_eq_nil_iff.mp (RawEntry.bytes_append_inj hsame).2).2

theorem le_length_of_field? (h : field? bytes = some (value, rest)) :
    rest.length + 2 ≤ bytes.length := by
  obtain ⟨-, rfl⟩ := field?_eq_some_iff.mp h
  simp only [encodeField, List.length_append, List.length_cons]
  omega

/-- An entry has five lengths in it. -/
theorem le_length_of_decodeOne? (h : decodeOne? bytes = some (entry, rest)) :
    rest.length + 10 ≤ bytes.length := by
  simp only [decodeOne?, Option.bind_eq_bind, Option.bind_eq_some_iff, Prod.exists,
    Option.pure_def, Option.some.injEq, Prod.mk.injEq] at h
  obtain ⟨_, _, h₁, _, _, h₂, _, _, h₃, _, _, h₄, _, _, h₅, rfl, rfl⟩ := h
  have l₁ := le_length_of_field? h₁
  have l₂ := le_length_of_field? h₂
  have l₃ := le_length_of_field? h₃
  have l₄ := le_length_of_field? h₄
  have l₅ := le_length_of_field? h₅
  omega

/-! ## Reading what was written -/

/-- Whether no field of an entry is too long to be written. -/
structure Fits (entry : AuthorityEntry) : Prop where
  protocolName : (utf8 entry.protocolName).length ≤ maxField
  protocolData : entry.protocolData.length ≤ maxField
  networkId : (utf8 entry.networkId).length ≤ maxField
  authName : (utf8 entry.authName).length ≤ maxField
  authData : entry.authData.length ≤ maxField

/-- What is left of an entry when each field is cut to the longest that can be written. -/
def clipped (entry : AuthorityEntry) : AuthorityEntry where
  protocolName := Utf8.decodeLossy ((utf8 entry.protocolName).take maxField)
  protocolData := entry.protocolData.take maxField
  networkId := Utf8.decodeLossy ((utf8 entry.networkId).take maxField)
  authName := Utf8.decodeLossy ((utf8 entry.authName).take maxField)
  authData := entry.authData.take maxField

theorem decodeLossy_take {s : String} (h : (utf8 s).length ≤ maxField) :
    Utf8.decodeLossy ((utf8 s).take maxField) = s := by
  rw [List.take_of_length_le h, Utf8.decodeLossy_utf8]

theorem Fits.clipped (h : entry.Fits) : entry.clipped = entry := by
  simp only [AuthorityEntry.clipped, decodeLossy_take h.protocolName,
    decodeLossy_take h.networkId, decodeLossy_take h.authName,
    List.take_of_length_le h.protocolData, List.take_of_length_le h.authData]

theorem map_clipped (h : ∀ entry ∈ entries, entry.Fits) : entries.map clipped = entries :=
  (List.map_congr_left fun entry hmem => (h entry hmem).clipped).trans (List.map_id _)

theorem entry_ofEntry (entry : AuthorityEntry) :
    (RawEntry.ofEntry entry).entry = entry.clipped := rfl

theorem decodeAll?_encodeAll (entries : List AuthorityEntry) :
    decodeAll? (encodeAll entries) = some (entries.map clipped) := by
  refine RawEntry.decodeAll?_eq_some_iff.mpr
    ⟨entries.map RawEntry.ofEntry, RawEntry.encodeAll_eq entries, ?_⟩
  rw [List.map_map]
  exact List.map_congr_left fun entry _ => (entry_ofEntry entry).symm

/-- **An authority file is read as it is written, and as its format says.** Entries whose fields
fit come back as they are. Bytes are read exactly if they are complete entries one after the
other, each of them as one entry, and not if they break off inside an entry; an entry is at
least ten bytes long, so reading comes to an end. And entries of any size come back, as many and
in the same order, with their fields cut to what can be written. -/
theorem file_format :
    (∀ entries, (∀ entry ∈ entries, entry.Fits) →
        decodeAll? (encodeAll entries) = some entries) ∧
      (∀ contents entries, decodeAll? contents = some entries ↔
        ∃ groups, contents = groups.flatten ∧ List.Forall₂ EntryBytes entries groups) ∧
      (∀ entries groups entry part rest, List.Forall₂ EntryBytes entries groups →
        EntryBytes entry (part ++ rest) → part ≠ [] → rest ≠ [] →
          decodeAll? (groups.flatten ++ part) = none) ∧
      (∀ contents entry rest, decodeOne? contents = some (entry, rest) →
        rest.length + 10 ≤ contents.length) ∧
      ∀ entries, decodeAll? (encodeAll entries) = some (entries.map clipped) := by
  refine ⟨?fits, ?format, ?inside, ?shorter, decodeAll?_encodeAll⟩
  case fits =>
    intro entries hfits
    rw [decodeAll?_encodeAll, map_clipped hfits]
  case format => exact fun _ _ => decodeAll?_eq_some_iff_forall₂
  case inside =>
    intro entries groups entry part rest hwhole hinside hpart hrest
    rw [decodeAll?_flatten_append hwhole, decodeAll?_of_inside hinside hpart hrest]
    rfl
  case shorter => exact fun _ _ _ => le_length_of_decodeOne?

/-- One entry, the file that is written for it, and the file without its last byte. -/
theorem file_format_one :
    let entry := AuthorityEntry.mk "ICE" [] "n" "A" [7]
    decodeAll? (encodeAll [entry]) = some [entry] ∧
      decodeAll? [0, 3, 73, 67, 69, 0, 0, 0, 1, 110, 0, 1, 65, 0, 1, 7] = some [entry] ∧
      decodeAll? [0, 3, 73, 67, 69, 0, 0, 0, 1, 110, 0, 1, 65, 0, 1] = none := by
  intro entry
  have hfits : ∀ e ∈ [entry], e.Fits := by
    intro e he
    obtain rfl := List.mem_singleton.mp he
    exact ⟨by decide +kernel, by decide +kernel, by decide +kernel, by decide +kernel,
      by decide +kernel⟩
  have hentry : EntryBytes entry [0, 3, 73, 67, 69, 0, 0, 0, 1, 110, 0, 1, 65, 0, 1, 7] :=
    entryBytes_iff.mpr ⟨RawEntry.ofEntry entry, by decide +kernel, by decide +kernel⟩
  obtain ⟨hround, hread, hinside, -⟩ := file_format
  refine ⟨hround _ hfits, (hread _ _).mpr ⟨[_], rfl, .cons hentry .nil⟩, ?_⟩
  exact hinside [] [] entry [0, 3, 73, 67, 69, 0, 0, 0, 1, 110, 0, 1, 65, 0, 1] [7] .nil hentry
    (List.cons_ne_nil _ _) (List.cons_ne_nil _ _)

end AuthorityEntry

end Xsmp
