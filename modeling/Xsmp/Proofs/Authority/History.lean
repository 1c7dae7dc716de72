import Xsmp.Proofs.Authority.Codec
import Xsmp.Proofs.Authority.Foreign

/-!
# An authority file over many sessions

Sessions put their entries into the file and take them out, one after the other, and each reads
the whole file and writes it anew. What stands in it at last depends on the last call for each
network id only: a call puts its own entries at the end and drops those of all earlier calls for
the same network id, and the entries of other network ids come through unchanged, because what
was read as text is written as the same bytes.
-/

namespace Xsmp

/-! ## Calls -/

/-- A call that has changed an authority file. -/
inductive AuthorityCall where
  /-- The entries of a network id have been put into the file, and returned to the session. -/
  | added (networkId : String) (entries : List AuthorityEntry)
  | removed (networkId : String)

namespace AuthorityCall

variable {call : AuthorityCall} {calls : List AuthorityCall} {initial : List AuthorityEntry}

def networkId : AuthorityCall → String
  | added networkId _ | removed networkId => networkId

/-- The entries that a call leaves at the end of the file. -/
def entries : AuthorityCall → List AuthorityEntry
  | added _ entries => entries
  | removed _ => []

/-- The calls that are the last ones for their network id. -/
def lasting : List AuthorityCall → List AuthorityCall
  | [] => []
  | call :: later =>
    if later.any (·.networkId == call.networkId) then lasting later else call :: lasting later

/-- The entries after some calls: those that were there before and have a network id that no
call has named, and then those of the last call for each network id. -/
def standing (initial : List AuthorityEntry) (calls : List AuthorityCall) : List AuthorityEntry :=
  initial.filter (fun entry =>
    !entry.networkId.isEmpty && calls.all (·.networkId != entry.networkId)) ++
    (lasting calls).flatMap entries

/-- Whether a call has a network id and its entries have the same. -/
structure Proper (call : AuthorityCall) : Prop where
  named : call.networkId ≠ ""
  own : ∀ entry ∈ call.entries, entry.networkId = call.networkId

/-! ## What one more call does -/

/-- One more call is the last one for its network id, and no other call for it is. -/
theorem lasting_snoc (calls : List AuthorityCall) (call : AuthorityCall) :
    lasting (calls ++ [call]) =
      (lasting calls).filter (·.networkId != call.networkId) ++ [call] := by
  induction calls with
  | nil => rfl
  | cons first later ih =>
    rw [List.cons_append, lasting, lasting, ih, List.any_append]
    by_cases hlater : later.any (·.networkId == first.networkId) = true
    · rw [hlater, Bool.true_or, if_pos rfl, if_pos rfl]
    · rw [Bool.eq_false_iff.mpr hlater, Bool.false_or, if_neg Bool.false_ne_true, List.filter_cons]
      by_cases hsame : call.networkId = first.networkId
      · simp [hsame]
      · simp [hsame, Ne.symm hsame]

/-- The entries of a call are foreign to every other network id. -/
theorem Proper.filter_entries (h : call.Proper) (networkId : String) :
    call.entries.filter (AuthorityEntry.foreign networkId) =
      if call.networkId != networkId then call.entries else [] := by
  have hforeign : ∀ entry ∈ call.entries,
      entry.foreign networkId = (call.networkId != networkId) := by
    intro entry hentry
    have hnamed : call.networkId.isEmpty = false := String.isEmpty_eq_false_iff.mpr h.named
    rw [AuthorityEntry.foreign, h.own entry hentry, hnamed, Bool.not_false, Bool.true_and]
  split
  · rename_i hother
    exact List.filter_eq_self.mpr fun entry hentry => (hforeign entry hentry).trans hother
  · rename_i hown
    exact List.filter_eq_nil_iff.mpr fun entry hentry => by rwa [hforeign entry hentry]

theorem filter_flatMap_entries (hproper : ∀ call ∈ calls, call.Proper) (networkId : String) :
    (calls.flatMap entries).filter (AuthorityEntry.foreign networkId) =
      (calls.filter (·.networkId != networkId)).flatMap entries := by
  induction calls with
  | nil => rfl
  | cons call later ih =>
    have hcall := hproper call List.mem_cons_self
    rw [List.flatMap_cons, List.filter_append, hcall.filter_entries,
      ih fun other hother => hproper other (List.mem_cons_of_mem _ hother), List.filter_cons]
    split <;> rfl

theorem mem_of_mem_lasting (h : call ∈ lasting calls) : call ∈ calls := by
  induction calls with
  | nil => exact h
  | cons first later ih =>
    rw [lasting] at h
    split at h
    · exact List.mem_cons_of_mem _ (ih h)
    · rcases List.mem_cons.mp h with rfl | h
      · exact List.mem_cons_self
      · exact List.mem_cons_of_mem _ (ih h)

/-- One more call drops the entries of its network id and puts its own last. -/
theorem standing_snoc (hproper : ∀ call ∈ calls, call.Proper) (call : AuthorityCall) :
    standing initial (calls ++ [call]) =
      (standing initial calls).filter (AuthorityEntry.foreign call.networkId) ++ call.entries := by
  have hlasting : ∀ call ∈ lasting calls, call.Proper :=
    fun call hcall => hproper call (mem_of_mem_lasting hcall)
  rw [standing, standing, List.filter_append, filter_flatMap_entries hlasting, lasting_snoc,
    List.flatMap_append, List.flatMap_singleton, List.append_assoc, List.filter_filter]
  refine congrArg (· ++ _) (List.filter_congr fun entry _ => ?_)
  simp only [AuthorityEntry.foreign, List.all_append, List.all_cons, List.all_nil, Bool.and_true]
  rw [bne_comm]
  cases entry.networkId.isEmpty <;> simp [Bool.and_comm]

/-- Without calls only the entries without a network id do not stand. -/
theorem filter_standing_nil (initial : List AuthorityEntry) (networkId : String) :
    (standing initial []).filter (AuthorityEntry.foreign networkId) =
      initial.filter (AuthorityEntry.foreign networkId) := by
  rw [standing, lasting, List.flatMap_nil, List.append_nil, List.filter_filter]
  refine List.filter_congr fun entry _ => ?_
  cases hempty : entry.networkId.isEmpty <;> simp [AuthorityEntry.foreign, hempty]

end AuthorityCall

/-! ## Entries in a file -/

namespace RawEntry

variable {raw : RawEntry}

/-- Whether the texts of an entry in a file are text. -/
structure IsText (raw : RawEntry) : Prop where
  protocolName : ∃ s, raw.protocolName.1 = utf8 s
  networkId : ∃ s, raw.networkId.1 = utf8 s
  authName : ∃ s, raw.authName.1 = utf8 s

/-- What is read as text is no longer than the field. -/
theorem length_utf8_decodeLossy {field : EntryField} (h : ∃ s, field.1 = utf8 s) :
    (utf8 (Utf8.decodeLossy field.1)).length ≤ AuthorityEntry.maxField := by
  obtain ⟨s, hs⟩ := h
  have hmax := field.2
  rw [hs] at hmax ⊢
  rwa [Utf8.decodeLossy_utf8]

theorem IsText.fits (h : raw.IsText) : raw.entry.Fits where
  protocolName := length_utf8_decodeLossy h.protocolName
  protocolData := raw.protocolData.2
  networkId := length_utf8_decodeLossy h.networkId
  authName := length_utf8_decodeLossy h.authName
  authData := raw.authData.2

end RawEntry

/-- A network id that can stand in a file and is told from none. -/
structure IsNetworkId (networkId : String) : Prop where
  named : networkId ≠ ""
  fits : (utf8 networkId).length ≤ AuthorityEntry.maxField

namespace AuthorityEntry

variable {networkId : String} {connection session : Cookie} {entry : AuthorityEntry}

theorem networkId_of_mem_ofSession (h : entry ∈ ofSession networkId connection session) :
    entry.networkId = networkId := by
  simp only [ofSession, List.mem_cons, List.not_mem_nil, or_false] at h
  rcases h with rfl | rfl <;> rfl

theorem fits_of_mem_ofSession (hid : IsNetworkId networkId)
    (hconnection : connection.length ≤ maxField) (hsession : session.length ≤ maxField)
    (h : entry ∈ ofSession networkId connection session) : entry.Fits := by
  have hice : (utf8 "ICE").length ≤ maxField := by decide +kernel
  have hxsmp : (utf8 "XSMP").length ≤ maxField := by decide +kernel
  have hauth : (utf8 cookieAuth).length ≤ maxField := by decide +kernel
  simp only [ofSession, List.mem_cons, List.not_mem_nil, or_false] at h
  rcases h with rfl | rfl
  · exact ⟨hice, Nat.zero_le _, hid.fits, hauth, hconnection⟩
  · exact ⟨hxsmp, Nat.zero_le _, hid.fits, hauth, hsession⟩

end AuthorityEntry

namespace Authority

open AuthorityEntry

variable {authority : Authority} {path : Path} {tree before middle after : FileTree}
  {networkId : String} {connection session : Cookie} {now : Int} {waited : Nat}
  {new entries initial : List AuthorityEntry} {call : AuthorityCall}
  {calls later : List AuthorityCall} {raws : List RawEntry}

/-! ## One call -/

/-- One successful call of a session whose authority file is at `path`, by its outcome. -/
inductive Called (path : Path) (before : FileTree) : AuthorityCall → FileTree → Prop
  | add {authority : Authority} {networkId : String} {connection session : Cookie} {now : Int}
    {entries : List AuthorityEntry} {after : FileTree} {waited : Nat}
    (same : authority.path = path)
    (cookies : connection.length ≤ maxField ∧ session.length ≤ maxField)
    (call : authority.addNetwork before networkId connection session now =
      (after, .ok entries, waited)) : Called path before (.added networkId entries) after
  | remove {authority : Authority} {networkId : String} {now : Int} {after : FileTree}
    {waited : Nat} (same : authority.path = path)
    (call : authority.removeNetwork before networkId now = (after, .ok (), waited)) :
    Called path before (.removed networkId) after

theorem addNetwork_ok
    (h : authority.addNetwork tree networkId connection session now = (after, .ok new, waited)) :
    new = ofSession networkId connection session ∧
      authority.update tree networkId new now = (after, .ok (), waited) := by
  simp only [addNetwork] at h
  rcases hupdate : authority.update tree networkId (ofSession networkId connection session) now with
    ⟨after', error | ⟨⟩, waited'⟩
  · rw [hupdate] at h
    cases h
  · rw [hupdate] at h
    cases h
    exact ⟨rfl, hupdate⟩

/-- A call is a change of the file, with entries of its own network id that fit into it. -/
theorem Called.update (h : Called path before call after) (hid : IsNetworkId call.networkId) :
    call.Proper ∧ (∀ entry ∈ call.entries, entry.Fits) ∧
      ∃ (authority : Authority) (now : Int) (waited : Nat), authority.path = path ∧
        authority.update before call.networkId call.entries now = (after, .ok (), waited) := by
  cases h with
  | add same cookies call =>
    obtain ⟨rfl, hupdate⟩ := addNetwork_ok call
    exact ⟨⟨hid.named, fun entry => networkId_of_mem_ofSession⟩,
      fun entry => fits_of_mem_ofSession hid cookies.1 cookies.2, _, _, _, same, hupdate⟩
  | remove same call =>
    exact ⟨⟨hid.named, fun entry hentry => absurd hentry List.not_mem_nil⟩,
      fun entry hentry => absurd hentry List.not_mem_nil, _, _, _, same, call⟩

theorem Called.ofSession (h : Called path before call after)
    (hcall : call = .added networkId entries) :
    ∃ connection session, entries = ofSession networkId connection session := by
  cases h with
  | add same cookies call =>
    cases hcall
    exact ⟨_, _, (addNetwork_ok call).1⟩
  | remove same call => cases hcall

theorem read_of_path {other : Authority} (h : authority.path = other.path) (tree : FileTree) :
    authority.read tree = other.read tree := by
  unfold read
  rw [h]

/-- What was read before is read after a change, but for the entries that are replaced. -/
theorem read_of_update (h : authority.update tree networkId new now = (after, .ok (), waited))
    (hread : authority.read tree = .ok entries) (hfits : ∀ entry ∈ entries, entry.Fits)
    (hnew : ∀ entry ∈ new, entry.Fits) :
    authority.read after = .ok (entries.filter (foreign networkId) ++ new) := by
  obtain ⟨entries', hread', hwritten⟩ := update_ok h
  rw [hread, Except.ok.injEq] at hread'
  subst hread'
  have hall : ∀ entry ∈ entries.filter (foreign networkId) ++ new, entry.Fits := by
    intro entry hentry
    rcases List.mem_append.mp hentry with hkept | hmem
    · exact hfits entry (List.mem_filter.mp hkept).1
    · exact hnew entry hmem
  simp only [read, hwritten, decodeAll?_encodeAll, map_clipped hall]

/-! ## Many calls -/

/-- Sessions call one after the other, each when the one before has come to an end. In between
anything may be done that leaves the contents of the file as they are. -/
inductive Changed (path : Path) (tree : FileTree) : List AuthorityCall → FileTree → Prop
  | start : Changed path tree [] tree
  | elsewhere {calls : List AuthorityCall} {before after : FileTree}
    (changed : Changed path tree calls before) (same : after.read path = before.read path) :
    Changed path tree calls after
  | call {calls : List AuthorityCall} {call : AuthorityCall} {before after : FileTree}
    (changed : Changed path tree calls before) (called : Called path before call after) :
    Changed path tree (calls ++ [call]) after

theorem Changed.trans (h : Changed path tree calls middle) (h' : Changed path middle later after) :
    Changed path tree (calls ++ later) after := by
  induction h' with
  | start => rwa [List.append_nil]
  | elsewhere _ same ih => exact ih.elsewhere same
  | call _ called ih =>
    rw [← List.append_assoc]
    exact ih.call called

theorem Changed.ofSession (h : Changed path tree calls after)
    (hmem : .added networkId entries ∈ calls) :
    ∃ connection session, entries = ofSession networkId connection session := by
  induction h with
  | start => exact absurd hmem List.not_mem_nil
  | elsewhere _ _ ih => exact ih hmem
  | call _ called ih =>
    rcases List.mem_append.mp hmem with hmem | hmem
    · exact ih hmem
    · exact called.ofSession (List.mem_singleton.mp hmem).symm

/-- What holds of the file after any calls. Entries without a network id are there until the
first call, so before it only the others are those that stand. -/
structure Stands (authority : Authority) (initial : List AuthorityEntry)
    (calls : List AuthorityCall) (tree : FileTree) (entries : List AuthorityEntry) : Prop where
  read : authority.read tree = .ok entries
  fits : ∀ entry ∈ entries, entry.Fits
  proper : ∀ call ∈ calls, call.Proper
  foreign : ∀ networkId, entries.filter (AuthorityEntry.foreign networkId) =
    (AuthorityCall.standing initial calls).filter (AuthorityEntry.foreign networkId)
  standing : calls ≠ [] → entries = AuthorityCall.standing initial calls

theorem Stands.snoc (h : authority.Stands initial calls before entries)
    (hcalled : Called authority.path before call after) (hid : IsNetworkId call.networkId) :
    authority.Stands initial (calls ++ [call]) after
      (AuthorityCall.standing initial (calls ++ [call])) := by
  obtain ⟨hproper, hfits, other, now, waited, hpath, hupdate⟩ := hcalled.update hid
  have hread : other.read before = .ok entries := (read_of_path hpath before).trans h.read
  have hafter := read_of_update hupdate hread h.fits hfits
  rw [h.foreign, ← AuthorityCall.standing_snoc h.proper, read_of_path hpath] at hafter
  refine ⟨hafter, ?fits, ?proper, fun _ => rfl, fun _ => rfl⟩
  case fits =>
    rw [AuthorityCall.standing_snoc h.proper, ← h.foreign]
    intro entry hentry
    rcases List.mem_append.mp hentry with hkept | hnew
    · exact h.fits entry (List.mem_filter.mp hkept).1
    · exact hfits entry hnew
  case proper =>
    intro other hother
    rcases List.mem_append.mp hother with hbefore | hlast
    · exact h.proper other hbefore
    · exact List.mem_singleton.mp hlast ▸ hproper

theorem Changed.stands (h : Changed authority.path tree calls after)
    (hread : authority.read tree = .ok initial) (hfits : ∀ entry ∈ initial, entry.Fits)
    (hids : ∀ call ∈ calls, IsNetworkId call.networkId) :
    ∃ entries, authority.Stands initial calls after entries := by
  induction h with
  | start =>
    exact ⟨initial, hread, hfits, fun _ hcall => absurd hcall List.not_mem_nil,
      fun id => (AuthorityCall.filter_standing_nil initial id).symm, fun h => absurd rfl h⟩
  | elsewhere _ same ih =>
    obtain ⟨entries, hstands⟩ := ih hids
    exact ⟨entries, (read_congr same).trans hstands.read, hstands.fits, hstands.proper,
      hstands.foreign, hstands.standing⟩
  | call _ called ih =>
    obtain ⟨entries, hstands⟩ := ih fun call hcall => hids call (List.mem_append_left _ hcall)
    exact ⟨_, hstands.snoc called (hids _ (List.mem_append_right _ List.mem_cons_self))⟩

theorem Changed.read (h : Changed authority.path tree calls after)
    (hholds : authority.Holds tree raws) (htext : ∀ raw ∈ raws, raw.IsText)
    (hids : ∀ call ∈ calls, IsNetworkId call.networkId) (hcalls : calls ≠ []) :
    authority.read after = .ok (AuthorityCall.standing (raws.map RawEntry.entry) calls) := by
  have hfits : ∀ entry ∈ raws.map RawEntry.entry, entry.Fits := by
    intro entry hentry
    obtain ⟨raw, hraw, rfl⟩ := List.mem_map.mp hentry
    exact (htext raw hraw).fits
  obtain ⟨entries, hstands⟩ := h.stands (read_eq_ok_iff.mpr ⟨raws, hholds, rfl⟩) hfits hids
  rw [hstands.read, hstands.standing hcalls]

end Authority

end Xsmp
