import Xsmp.Authority.File
import Xsmp.Proofs.Authority.Entry
import Xsmp.Proofs.Authority.Lock
import Mathlib.Data.List.Basic

/-!
# What becomes of other sessions' entries

A session that puts its entries into the authority file or takes them out reads the whole file
and writes it anew. The entries of other network ids stay in their order, and what else was in
the file goes. They stay byte for byte if they are text where text is expected; bytes that are
no text are replaced when they are read, and the replacement is what is written. An entry
whose network id is read as the session's own, because of such a replacement, goes as well.
-/

namespace Xsmp

namespace RawEntry

open AuthorityEntry

variable {raw : RawEntry} {raws : List RawEntry} {networkId : String}

/-- Whether an entry has a network id, and another one than the given. -/
def foreign (networkId : String) (raw : RawEntry) : Bool :=
  raw.networkId.1 != [] && raw.networkId.1 != utf8 networkId

theorem foreign_of_entry (h : raw.entry.foreign networkId = true) :
    raw.foreign networkId = true := by
  simp only [AuthorityEntry.foreign, entry, Bool.and_eq_true, Bool.not_eq_true',
    String.isEmpty_eq_false_iff, bne_iff_ne] at h
  simp only [foreign, Bool.and_eq_true, bne_iff_ne]
  refine ⟨fun hempty => h.1 (Utf8.decodeLossy_eq_empty_iff.mpr hempty), fun hown => h.2 ?_⟩
  rw [hown, Utf8.decodeLossy_utf8]

/-- An entry of another network id is kept unless it is read as one of the given. -/
theorem entry_foreign_iff (h : raw.foreign networkId = true) :
    raw.entry.foreign networkId = true ↔ raw.entry.networkId ≠ networkId := by
  simp only [foreign, Bool.and_eq_true, bne_iff_ne] at h
  have hempty : raw.entry.networkId ≠ "" :=
    fun heq => h.1 (Utf8.decodeLossy_eq_empty_iff.mp heq)
  simp [AuthorityEntry.foreign, hempty]

/-- Whether an entry is still there, byte for byte, after the entries of a network id have been
replaced. -/
def Survives (networkId : String) (raw : RawEntry) : Prop :=
  raw.Lossless ∧ raw.entry.networkId ≠ networkId

/-- The entries that are written back are the foreign ones exactly if these survive. -/
theorem map_ofEntry_filter_iff (raws : List RawEntry) (networkId : String) :
    ((raws.map entry).filter (AuthorityEntry.foreign networkId)).map ofEntry =
        raws.filter (foreign networkId) ↔
      ∀ raw ∈ raws, raw.foreign networkId = true → raw.Survives networkId := by
  have hwritten : ((raws.map entry).filter (AuthorityEntry.foreign networkId)).map ofEntry =
      (raws.filter fun raw => raw.entry.foreign networkId).map fun raw => ofEntry raw.entry := by
    rw [List.filter_map, List.map_map]
    rfl
  rw [hwritten]
  constructor
  · intro h raw hraw hforeign
    -- nothing is written that is not foreign, so as many entries are the same entries
    have hkept : (raws.filter fun raw => raw.entry.foreign networkId) =
        raws.filter (foreign networkId) := by
      refine List.Sublist.eq_of_length ?_ ?_
      · exact List.monotone_filter_right raws fun _ => foreign_of_entry
      · rw [← h, List.length_map]
    have hmem : raw ∈ raws.filter (foreign networkId) := List.mem_filter.mpr ⟨hraw, hforeign⟩
    have hsame : ofEntry raw.entry = raw := by
      rw [hkept] at h
      exact List.map_inj_left.mp (h.trans (List.map_id _).symm) raw hmem
    rw [← hkept] at hmem
    exact ⟨ofEntry_entry_iff.mp hsame, (entry_foreign_iff hforeign).mp (List.mem_filter.mp hmem).2⟩
  · intro h
    have hkept : (raws.filter fun raw => raw.entry.foreign networkId) =
        raws.filter (foreign networkId) := by
      refine List.filter_congr fun raw hraw => Bool.eq_iff_iff.mpr ⟨foreign_of_entry, ?_⟩
      exact fun hforeign => (entry_foreign_iff hforeign).mpr (h raw hraw hforeign).2
    rw [hkept]
    refine (List.map_congr_left fun raw hraw => ?_).trans (List.map_id _)
    obtain ⟨hmem, hforeign⟩ := List.mem_filter.mp hraw
    exact ofEntry_entry_iff.mpr (h raw hmem hforeign).1

end RawEntry

namespace Authority

variable {authority : Authority} {tree after : FileTree} {networkId : String}
  {new entries : List AuthorityEntry} {now : Int} {waited : Nat} {raws raws' : List RawEntry}

/-! ## The file before and after -/

/-- The entries in the file. A file that is not there has none. -/
def Holds (authority : Authority) (tree : FileTree) (raws : List RawEntry) : Prop :=
  tree.read authority.path = .ok (raws.flatMap RawEntry.bytes) ∨
    tree.read authority.path = .error .notFound ∧ raws = []

/-- What is read are the entries in the file. -/
theorem read_eq_ok_iff :
    authority.read tree = .ok entries ↔
      ∃ raws, authority.Holds tree raws ∧ entries = raws.map RawEntry.entry := by
  constructor
  · intro h
    unfold read at h
    split at h
    · rename_i contents hread
      split at h
      · rename_i decoded hdecode
        cases h
        obtain ⟨raws, rfl, rfl⟩ := RawEntry.decodeAll?_eq_some_iff.mp hdecode
        exact ⟨raws, .inl hread, rfl⟩
      · cases h
    · rename_i hread
      cases h
      exact ⟨[], .inr ⟨hread, rfl⟩, rfl⟩
    · cases h
  · rintro ⟨raws, hread | ⟨hread, rfl⟩, rfl⟩
    · simp only [read, hread, RawEntry.decodeAll?_eq_some_iff.mpr ⟨raws, rfl, rfl⟩]
    · simp only [read, hread, List.map_nil]

/-- A file holds its entries and no others. -/
theorem Holds.unique (h : authority.Holds tree raws) (h' : authority.Holds tree raws') :
    raws = raws' := by
  rcases h with h | ⟨h, rfl⟩ <;> rcases h' with h' | ⟨h', rfl⟩ <;> rw [h] at h'
  · exact RawEntry.flatMap_bytes_injective (Except.ok.inj h')
  · cases h'
  · cases h'

theorem read_congr {tree' : FileTree}
    (h : tree'.read authority.path = tree.read authority.path) :
    authority.read tree' = authority.read tree := by
  unfold read
  rw [h]

theorem replace_ok (h : authority.replace tree networkId new now = .ok after) :
    ∃ entries, authority.read tree = .ok entries ∧
      (∃ place, tree.locate authority.path = .ok place) ∧
      (∃ place, after.locate authority.path = .ok place) ∧
      after.read authority.path = .ok (AuthorityEntry.encodeAll
        (entries.filter (AuthorityEntry.foreign networkId) ++ new)) := by
  unfold replace at h
  cases hread : authority.read tree with
  | error error => rw [hread] at h; cases h
  | ok entries =>
    rw [hread] at h
    simp only [Bind.bind, Except.bind, write] at h
    split at h
    · rename_i hwrite
      cases h
      obtain ⟨⟨place, hplace⟩, hsame, hwritten⟩ := FileTree.write_ok hwrite
      exact ⟨entries, rfl, ⟨place, hplace⟩, ⟨place, hsame.locate_ok hplace⟩, hwritten⟩
    · cases h

/-- **What a change of the file comes to.** The entries of the network id and those without one
are gone, and the new ones come last. -/
theorem update_ok (h : authority.update tree networkId new now = (after, .ok (), waited)) :
    ∃ entries, authority.read tree = .ok entries ∧
      after.read authority.path = .ok (AuthorityEntry.encodeAll
        (entries.filter (AuthorityEntry.foreign networkId) ++ new)) := by
  unfold update at h
  have hbeside := beside_acquire authority now tree
  rcases hacquire : authority.acquire now tree with ⟨locked, error | ⟨⟩, waited'⟩
  · rw [hacquire] at h
    cases h
  · rw [hacquire] at h hbeside
    simp only [replaceAndRelease] at h
    cases hreplace : authority.replace locked networkId new now with
    | error error => rw [hreplace] at h; cases h
    | ok written =>
      rw [hreplace] at h
      cases h
      obtain ⟨entries, hread, ⟨place, hplace⟩, ⟨place', hplace'⟩, hwritten⟩ :=
        replace_ok hreplace
      have hbefore : tree.locate authority.path = .ok place :=
        hbeside.same.locate_ok_iff.mp hplace
      refine ⟨entries, ?_, ?_⟩
      · rw [← hread]
        exact (read_congr (hbeside.read_eq hbefore)).symm
      · rw [(beside_release authority now written).read_eq hplace', hwritten]

/-- The new file in terms of the raw entries of the old one. -/
theorem read_update_iff (hholds : authority.Holds tree raws)
    (h : authority.update tree networkId new now = (after, .ok (), waited)) :
    after.read authority.path = .ok ((raws.filter (RawEntry.foreign networkId)).flatMap
        RawEntry.bytes ++ AuthorityEntry.encodeAll new) ↔
      ∀ raw ∈ raws, raw.foreign networkId = true → raw.Survives networkId := by
  obtain ⟨entries, hread, hafter⟩ := update_ok h
  obtain ⟨raws', hholds', rfl⟩ := read_eq_ok_iff.mp hread
  obtain rfl := hholds.unique hholds'
  rw [hafter, ← RawEntry.map_ofEntry_filter_iff, Except.ok.injEq, RawEntry.encodeAll_eq,
    RawEntry.encodeAll_eq, List.map_append, List.flatMap_append, List.append_cancel_right_eq]
  exact ⟨RawEntry.flatMap_bytes_injective, congrArg _⟩

/-- **Which changes leave other sessions' entries alone.** After entries have been put into the
file or taken out, the entries with another network id stand in it byte for byte, in their
order, before the new ones, and nothing else does, exactly if each of them survives being read
as text: its names and its network id are text, or the longest field cut inside a replacement
character, and that network id is not read as the one given. -/
theorem foreign_untouched_iff (hholds : authority.Holds tree raws) (now : Int)
    (networkId : String) :
    (∀ connection session after new waited,
      authority.addNetwork tree networkId connection session now = (after, .ok new, waited) →
        (after.read authority.path = .ok ((raws.filter (RawEntry.foreign networkId)).flatMap
            RawEntry.bytes ++ AuthorityEntry.encodeAll new) ↔
          ∀ raw ∈ raws, raw.foreign networkId = true → raw.Survives networkId)) ∧
      ∀ after waited,
        authority.removeNetwork tree networkId now = (after, .ok (), waited) →
          (after.read authority.path = .ok ((raws.filter (RawEntry.foreign networkId)).flatMap
              RawEntry.bytes) ↔
            ∀ raw ∈ raws, raw.foreign networkId = true → raw.Survives networkId) := by
  constructor
  · intro connection session after new waited h
    simp only [addNetwork] at h
    rcases hupdate : authority.update tree networkId
      (AuthorityEntry.ofSession networkId connection session) now with ⟨after', error | ⟨⟩, waited'⟩
    · rw [hupdate] at h
      cases h
    · rw [hupdate] at h
      cases h
      exact read_update_iff hholds hupdate
  · intro after waited h
    have hnew := read_update_iff hholds h
    rw [show AuthorityEntry.encodeAll [] = [] from rfl, List.append_nil] at hnew
    exact hnew

/-- The session `me` comes and goes, or only goes, while the session `x` has an entry. -/
theorem foreign_untouched_iff_pair :
    let authority : Authority := { path := ⟨"/a"⟩ }
    let other : RawEntry := .ofEntry (.ofCookie "ICE" "x" [1, 2, 3])
    let own : RawEntry := .ofEntry (.ofCookie "ICE" "me" [4])
    let tree := ({} : FileTree).putFile ["a"] (other.bytes ++ own.bytes) 0
    authority.Holds tree [other, own] ∧
      (∃ after new waited,
        authority.addNetwork tree "me" [5] [6] 0 = (after, .ok new, waited) ∧
          after.read authority.path = .ok (other.bytes ++ AuthorityEntry.encodeAll new)) ∧
      ∃ after waited, authority.removeNetwork tree "me" 0 = (after, .ok (), waited) ∧
        after.read authority.path = .ok other.bytes := by
  intro authority other own tree
  have hholds : authority.Holds tree [other, own] := .inl (by decide +kernel)
  have hsurvives : ∀ raw ∈ [other, own], raw.foreign "me" = true → raw.Survives "me" := by
    intro raw hraw hforeign
    simp only [List.mem_cons, List.not_mem_nil, or_false] at hraw
    rcases hraw with rfl | rfl
    · exact ⟨⟨.inl ⟨"ICE", by decide +kernel⟩, .inl ⟨"x", by decide +kernel⟩,
        .inl ⟨AuthorityEntry.cookieAuth, by decide +kernel⟩⟩, by decide +kernel⟩
    · exact absurd hforeign (by decide +kernel)
  have hforeign : ([other, own].filter (RawEntry.foreign "me")).flatMap RawEntry.bytes =
      other.bytes := by
    decide +kernel
  have hadd : authority.addNetwork tree "me" [5] [6] 0 =
      ((authority.addNetwork tree "me" [5] [6] 0).1,
        .ok (AuthorityEntry.ofSession "me" [5] [6]), 0) :=
    Prod.ext rfl (by decide +kernel)
  have hremove : authority.removeNetwork tree "me" 0 =
      ((authority.removeNetwork tree "me" 0).1, .ok (), 0) :=
    Prod.ext rfl (by decide +kernel)
  have hafter := foreign_untouched_iff hholds 0 "me"
  refine ⟨hholds, ⟨_, _, _, hadd, ?_⟩, ⟨_, _, hremove, ?_⟩⟩
  · rw [← hforeign]
    exact (hafter.1 _ _ _ _ _ hadd).mpr hsurvives
  · rw [← hforeign]
    exact (hafter.2 _ _ hremove).mpr hsurvives

/-- The entry of another session has a byte that is no text. Taking out the entries of `me`, of
which there are none, makes three bytes of it. -/
theorem foreign_rewritten :
    let authority : Authority := { path := ⟨"/a"⟩ }
    let other : RawEntry :=
      { protocolName := AuthorityEntry.cut [0xff], protocolData := AuthorityEntry.cut [],
        networkId := AuthorityEntry.cut (utf8 "x"), authName := AuthorityEntry.cut (utf8 "A"),
        authData := AuthorityEntry.cut [1] }
    let tree := ({} : FileTree).putFile ["a"] other.bytes 0
    let (after, result, _) := authority.removeNetwork tree "me" 0
    authority.Holds tree [other] ∧ other.foreign "me" = true ∧ result = .ok () ∧
      other.bytes = [0, 1, 0xff, 0, 0, 0, 1, 120, 0, 1, 65, 0, 1, 1] ∧
      after.read authority.path =
        .ok [0, 3, 0xef, 0xbf, 0xbd, 0, 0, 0, 1, 120, 0, 1, 65, 0, 1, 1] ∧
      after.read authority.path ≠ .ok other.bytes :=
  ⟨.inl (by decide +kernel), by decide +kernel, by decide +kernel, by decide +kernel,
    by decide +kernel, by decide +kernel⟩

end Authority

end Xsmp
