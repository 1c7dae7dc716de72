import Xsmp.Proofs.Host.FileTree
import Xsmp.Proofs.Text.Blank

/-!
# The entries of a directory

The names in a directory are those that stand below its place. The path of an entry is the path
of the directory with the name behind it, so its last name is that name, and if it leads anywhere
it leads to what stands under the name in the directory.
-/

namespace Xsmp

variable {directory : Path} {name : String}

namespace Path

/-- A path that ends with a name after a slash. -/
theorem parts_append_name (text : String) (hname : '/' ∉ name.toList) :
    (⟨text ++ "/" ++ name⟩ : Path).parts = (⟨text⟩ : Path).parts ++ [name] := by
  have hlist : (text ++ "/" ++ name).toList = text.toList ++ '/' :: name.toList := by simp
  rw [parts, parts, hlist, Text.pieces_eq_splitOn, Text.pieces_eq_splitOn,
    List.splitOn_append_cons_self, List.splitOn_eq_singleton hname, List.map_append]
  simp

/-- The path of an entry is the path of its directory with the name behind it, after a slash. If the
directory has one at the end, that one will do. -/
theorem exists_entry_eq (hname : '/' ∉ name.toList) (hdirectory : directory.text ≠ "") :
    ∃ text, directory.entry name = ⟨text ++ "/" ++ name⟩ ∧
      (directory.text = text ∨ directory.text = text ++ "/") := by
  have hrelative : (⟨name⟩ : Path).isAbsolute = false := by
    unfold isAbsolute
    cases hcs : name.toList with
    | nil => rfl
    | cons c cs =>
      have hc : c ≠ '/' := fun heq => hname (by simp [hcs, heq])
      simpa using hc
  rw [entry, join, if_neg (by simp [hrelative])]
  split
  · next hlast =>
    rw [List.getLast?_eq_none_iff, String.toList_eq_nil_iff] at hlast
    exact absurd hlast hdirectory
  · next hlast =>
    obtain ⟨before, hbefore⟩ := List.getLast?_eq_some_iff.mp hlast
    have htext : directory.text = String.ofList before ++ "/" := by
      rw [← String.toList_inj, hbefore]
      simp
    exact ⟨String.ofList before, by rw [htext], .inr htext⟩
  · exact ⟨directory.text, rfl, .inl rfl⟩

theorem isAbsolute_entry (hname : '/' ∉ name.toList) (hdirectory : directory.text ≠ "") :
    (directory.entry name).isAbsolute = directory.isAbsolute := by
  obtain ⟨text, hentry, htext⟩ := exists_entry_eq hname hdirectory
  obtain ⟨c, cs, hcs⟩ : ∃ c cs, directory.text.toList = c :: cs :=
    List.exists_cons_of_ne_nil fun hnil => hdirectory (String.toList_eq_nil_iff.mp hnil)
  have hlonger : ∃ more, (text ++ "/" ++ name).toList = directory.text.toList ++ more := by
    rcases htext with htext | htext
    · exact ⟨'/' :: name.toList, by simp [htext]⟩
    · exact ⟨name.toList, by simp [htext]⟩
  obtain ⟨more, hmore⟩ := hlonger
  rw [isAbsolute, isAbsolute, hentry, hmore, hcs]
  rfl

/-- The last name in the path of an entry is its name. -/
theorem fileName?_entry (hname : '/' ∉ name.toList) (hdots : name ∉ ["", ".", ".."])
    (hdirectory : directory.text ≠ "") : (directory.entry name).fileName? = some name := by
  obtain ⟨text, hentry, -⟩ := exists_entry_eq hname hdirectory
  simp only [List.mem_cons, List.not_mem_nil, or_false, not_or] at hdots
  have hkept : [name].filter (fun part => !part.isEmpty && part != ".") = [name] := by
    simp [hdots.1, hdots.2.1]
  rw [fileName?, hentry, parts_append_name text hname, List.filter_append, hkept,
    List.getLast?_concat]
  split
  · next heq => exact absurd (Option.some.inj heq) hdots.2.2
  · rfl

/-- The path of an entry ends with its name, in any directory. -/
theorem exists_parts_entry (directory : Path) (hname : '/' ∉ name.toList) :
    ∃ outer, (directory.entry name).parts = outer ++ [name] := by
  by_cases hdirectory : directory.text = ""
  · have hentry : directory.entry name = ⟨name⟩ := by
      rw [entry, join, hdirectory]
      exact ite_self _
    refine ⟨[], ?_⟩
    rw [hentry, parts, Text.pieces_eq_splitOn, List.splitOn_eq_singleton hname]
    simp
  · obtain ⟨text, hentry, -⟩ := exists_entry_eq hname hdirectory
    exact ⟨_, hentry ▸ parts_append_name text hname⟩

end Path

namespace FileTree

variable {tree : FileTree} {place next : Place}

theorem enter_empty (h : tree.enter place "" = .ok next) : next = place := by
  unfold enter at h
  split at h
  · cases h
  · cases h
    rfl
  · cases h

/-- If a path leads anywhere it is not empty. -/
theorem text_ne_empty_of_locate {path : Path} (h : tree.locate path = .ok place) :
    path.text ≠ "" := by
  intro hempty
  unfold locate at h
  cases hpath : checkPath path with
  | error cause => rw [hpath] at h; cases h
  | ok checked =>
    rw [hpath, hempty] at h
    cases h

/-- **The path of an entry leads to its name in the directory.** -/
theorem locate_entry (hdirectory : tree.locate directory = .ok place)
    (hname : '/' ∉ name.toList) (hdots : name ∉ ["", ".", ".."])
    (h : tree.locate (directory.entry name) = .ok next) : next = name :: place := by
  obtain ⟨text, hentry, htext⟩ :=
    Path.exists_entry_eq hname (text_ne_empty_of_locate hdirectory)
  have hway := foldlM_of_locate hdirectory
  have hway' := foldlM_of_locate h
  have hstart : tree.start (directory.entry name) = tree.start directory := by
    rw [start, start, Path.isAbsolute_entry hname (text_ne_empty_of_locate hdirectory)]
  rw [hstart, hentry, Path.parts_append_name text hname] at hway'
  obtain ⟨middle, houter, hlast⟩ := foldlM_enter_snoc hway'
  suffices hplace : middle = place by rw [enter_name hlast hdots, hplace]
  rcases htext with rfl | htext
  · exact Except.ok.inj (houter.symm.trans hway)
  · -- the slash at the end of the directory leads nowhere else
    have hparts : directory.parts = (⟨text⟩ : Path).parts ++ [""] := by
      have hempty := @Path.parts_append_name "" text (by decide)
      rw [String.append_empty] at hempty
      rw [← hempty, ← htext]
    rw [hparts] at hway
    obtain ⟨middle', houter', hlast'⟩ := foldlM_enter_snoc hway
    rw [enter_empty hlast']
    exact Except.ok.inj (houter.symm.trans houter')

/-- The path of an entry leads to its name somewhere. -/
theorem exists_locate_entry (hname : '/' ∉ name.toList) (hdots : name ∉ ["", ".", ".."])
    (h : tree.locate (directory.entry name) = .ok place) : ∃ outer, place = name :: outer := by
  obtain ⟨outer, houter⟩ := Path.exists_parts_entry directory hname
  have hway := foldlM_of_locate h
  rw [houter] at hway
  obtain ⟨middle, -, hlast⟩ := foldlM_enter_snoc hway
  exact ⟨middle, enter_name hlast hdots⟩

/-- No name in a tree has a slash in it. -/
def PlainNames (tree : FileTree) : Prop :=
  ∀ entry ∈ tree.nodes, ∀ name ∈ entry.1, '/' ∉ name.toList

instance (tree : FileTree) : Decidable tree.PlainNames :=
  inferInstanceAs (Decidable (∀ entry ∈ tree.nodes, ∀ name ∈ entry.1, '/' ∉ name.toList))

theorem isSome_node?_iff :
    (tree.node? (name :: place)).isSome ↔ ∃ entry ∈ tree.nodes, entry.1 = name :: place := by
  have hlookup : tree.node? (name :: place) = tree.nodes.lookup (name :: place) := by
    unfold node?
    cases tree.nodes.lookup (name :: place) <;> rfl
  simp [hlookup, List.lookup_isSome_iff, eq_comm (a := name :: place)]

theorem PlainNames.slash_not_mem (h : tree.PlainNames)
    (hnode : (tree.node? (name :: place)).isSome) : '/' ∉ name.toList := by
  obtain ⟨entry, hentry, hplace⟩ := isSome_node?_iff.mp hnode
  exact h entry hentry name (hplace ▸ List.mem_cons_self)

theorem exists_list {mode : Nat} (h : tree.find directory = .ok (place, .directory mode)) :
    ∃ names, tree.list directory = .ok names := by
  unfold list
  rw [h]
  exact ⟨_, rfl⟩

/-- Names are those of a directory. -/
theorem find_of_list {names : List String} (h : tree.list directory = .ok names) :
    ∃ place mode, tree.find directory = .ok (place, .directory mode) := by
  unfold list at h
  cases hfind : tree.find directory with
  | error cause => rw [hfind] at h; cases h
  | ok found =>
    obtain ⟨place, node⟩ := found
    rw [hfind] at h
    cases node with
    | directory mode => exact ⟨place, mode, rfl⟩
    | file identity contents modified => cases h
    | socket => cases h

/-- A name stands in a directory if anything stands under it there. -/
theorem mem_list_iff {mode : Nat} {names : List String}
    (hdirectory : tree.find directory = .ok (place, .directory mode))
    (hlist : tree.list directory = .ok names) :
    name ∈ names ↔ (tree.node? (name :: place)).isSome := by
  unfold list at hlist
  rw [hdirectory] at hlist
  cases hlist
  rw [isSome_node?_iff, List.mem_filterMap]
  constructor
  · rintro ⟨⟨below, node⟩, hmem, hname⟩
    refine ⟨(below, node), hmem, ?_⟩
    cases below with
    | nil => cases hname
    | cons first outer =>
      change (if outer == place then some first else none) = some name at hname
      split at hname
      · next houter =>
        obtain rfl := Option.some.inj hname
        rw [beq_iff_eq] at houter
        rw [houter]
      · cases hname
  · rintro ⟨⟨below, node⟩, hmem, hbelow⟩
    obtain rfl : below = name :: place := hbelow
    exact ⟨_, hmem, if_pos (beq_self_eq_true place)⟩

end FileTree

end Xsmp
