import Mathlib.Data.List.Induction
import Xsmp.Manifest.Autostart
import Xsmp.Proofs.Host.Entries
import Xsmp.Proofs.Text.ByteOrder

/-!
# Which manifest stands for a name

A directory offers a manifest under a name if it holds a file of that name with the right ending
whose text can be read and is that of a manifest. Of all that are offered under a name the one of
the first directory stands for it, and what cannot be read or is no manifest is as good as missing.
So more directories only add manifests at the end, and none at all if they are not new.
-/

namespace Xsmp

variable {tree : FileTree} {directory : Path} {name text : String} {manifest other : Manifest}

/-! ## Reading a manifest -/

theorem FileTree.readText_eq_ok_iff {path : Path} :
    tree.readText path = .ok text ↔ ∃ place identity contents modified,
      tree.find path = .ok (place, .file identity contents modified) ∧
        Utf8.decode? contents = some text := by
  unfold readText read
  cases hfind : tree.find path with
  | error cause => simp [Bind.bind, Except.bind]
  | ok found =>
    obtain ⟨place, node⟩ := found
    cases node with
    | directory mode => simp [Bind.bind, Except.bind, throw, throwThe, MonadExceptOf.throw]
    | socket => simp [Bind.bind, Except.bind, throw, throwThe, MonadExceptOf.throw]
    | file identity contents modified =>
      simp only [Bind.bind, Except.bind, Except.ok.injEq, Prod.mk.injEq, Node.file.injEq]
      cases hdecode : Utf8.decode? contents with
      | none => simp [hdecode, pure, Except.pure, throw, throwThe, MonadExceptOf.throw]
      | some decoded => simp [hdecode, pure, Except.pure]

namespace Manifest

theorem toOption_load_eq_some_iff {path : Path} :
    (load tree path).toOption = some manifest ↔
      ∃ text, tree.readText path = .ok text ∧ parse path text = .ok manifest := by
  unfold load
  cases tree.readText path with
  | error cause => simp [Except.toOption]
  | ok text =>
    cases hparse : parse path text with
    | error cause => simp [Except.toOption, hparse]
    | ok parsed => simp [Except.toOption, hparse]

/-- A manifest knows the path it came from. -/
theorem source_of_parse {path : Path} (h : parse path text = .ok manifest) :
    manifest.source = path := by
  unfold parse at h
  split at h
  · cases h
  · split at h
    · cases h
      rfl
    · cases h

end Manifest

namespace Autostart

/-! ## What a directory offers -/

/-- The directory holds a file of this name and text. -/
def HoldsText (tree : FileTree) (directory : Path) (name text : String) : Prop :=
  ∃ place mode identity contents modified,
    tree.find directory = .ok (place, .directory mode) ∧
    tree.find (directory.entry name) = .ok (name :: place, .file identity contents modified) ∧
    Utf8.decode? contents = some text

/-- The directory holds a manifest of this name. -/
structure Offers (tree : FileTree) (directory : Path) (name : String) (manifest : Manifest) :
    Prop where
  named : ∃ stem, stem ≠ "" ∧ name = stem ++ ".desktop"
  parsed : ∃ text, HoldsText tree directory name text ∧
    Manifest.parse (directory.entry name) text = .ok manifest

theorem isManifestName_iff :
    isManifestName name ↔ ∃ stem, stem ≠ "" ∧ name = stem ++ ".desktop" := by
  have hends : name.endsWith ending ↔ ∃ stem, name = stem ++ ".desktop" := by
    constructor
    · intro h
      have hslice := String.Slice.endsWith_string_iff.mp
        (show name.toSlice.endsWith ".desktop" = true from h)
      rw [String.copy_toSlice] at hslice
      obtain ⟨before, hbefore⟩ := hslice
      exact ⟨String.ofList before, by rw [← String.toList_inj, ← hbefore]; simp⟩
    · rintro ⟨stem, rfl⟩
      refine String.Slice.endsWith_string_iff.mpr ?_
      rw [String.copy_toSlice]
      exact ⟨stem.toList, by simp [ending]⟩
  rw [isManifestName, Bool.and_eq_true, hends, bne_iff_ne]
  constructor
  · rintro ⟨⟨stem, rfl⟩, hne⟩
    refine ⟨stem, ?_, rfl⟩
    rintro rfl
    exact hne rfl
  · rintro ⟨stem, hstem, rfl⟩
    refine ⟨⟨stem, rfl⟩, fun heq => hstem ?_⟩
    have hlist := congrArg String.toList heq
    simpa [ending] using hlist

/-- No directory entry that means something else ends like a manifest. -/
theorem not_mem_dots (h : ∃ stem, stem ≠ "" ∧ name = stem ++ ".desktop") :
    name ∉ ["", ".", ".."] := by
  obtain ⟨stem, -, rfl⟩ := h
  intro hmem
  have hlength : (stem ++ ".desktop").length ≤ 2 := by
    simp only [List.mem_cons, List.not_mem_nil, or_false] at hmem
    rcases hmem with heq | heq | heq <;> rw [heq] <;> decide
  have hending : ".desktop".length = 8 := rfl
  rw [String.length_append] at hlength
  omega

/-- A directory offers one manifest under a name. -/
theorem Offers.unique (h : Offers tree directory name manifest)
    (h' : Offers tree directory name other) : manifest = other := by
  obtain ⟨text, ⟨_, _, _, _, _, -, hfile, hdecode⟩, hparse⟩ := h.parsed
  obtain ⟨text', ⟨_, _, _, _, _, -, hfile', hdecode'⟩, hparse'⟩ := h'.parsed
  cases hfile.symm.trans hfile'
  cases hdecode.symm.trans hdecode'
  exact Except.ok.inj (hparse.symm.trans hparse')

/-- The manifest bears the name that it is offered under. -/
theorem Offers.baseName_eq (hplain : tree.PlainNames) (h : Offers tree directory name manifest) :
    manifest.baseName = name := by
  obtain ⟨text, ⟨place, mode, identity, contents, modified, hdirectory, hfile, -⟩, hparse⟩ :=
    h.parsed
  have hnonempty : directory.text ≠ "" :=
    FileTree.text_ne_empty_of_locate (FileTree.locate_of_find hdirectory)
  have hslash : '/' ∉ name.toList :=
    hplain.slash_not_mem (by rw [FileTree.node?_of_find hfile]; rfl)
  rw [Manifest.baseName, Manifest.source_of_parse hparse,
    Path.fileName?_entry hslash (not_mem_dots h.named) hnonempty]
  rfl

/-- What is loaded of a directory is what it offers. -/
theorem offers_iff (hplain : tree.PlainNames) {names : List String}
    (hlist : tree.list directory = .ok names) :
    Offers tree directory name manifest ↔ (name ∈ names ∧ isManifestName name) ∧
      (Manifest.load tree (directory.entry name)).toOption = some manifest := by
  obtain ⟨place, mode, hdirectory⟩ := FileTree.find_of_list hlist
  rw [FileTree.mem_list_iff hdirectory hlist, isManifestName_iff,
    Manifest.toOption_load_eq_some_iff]
  simp only [FileTree.readText_eq_ok_iff]
  constructor
  · rintro ⟨hnamed, text, ⟨place', mode', identity, contents, modified, hdirectory', hfile,
      hdecode⟩, hparse⟩
    cases hdirectory.symm.trans hdirectory'
    exact ⟨⟨by rw [FileTree.node?_of_find hfile]; rfl, hnamed⟩, text,
      ⟨_, identity, contents, modified, hfile, hdecode⟩, hparse⟩
  · rintro ⟨⟨hnode, hnamed⟩, text, ⟨there, identity, contents, modified, hfile, hdecode⟩, hparse⟩
    -- the file that was read stands in the directory itself
    obtain rfl : there = name :: place :=
      FileTree.locate_entry (FileTree.locate_of_find hdirectory) (hplain.slash_not_mem hnode)
        (not_mem_dots hnamed) (FileTree.locate_of_find hfile)
    exact ⟨hnamed, text,
      ⟨place, mode, identity, contents, modified, hdirectory, hfile, hdecode⟩, hparse⟩

/-- The manifests of a directory are those that it offers. -/
theorem mem_inDirectory_iff (hplain : tree.PlainNames) :
    manifest ∈ inDirectory tree directory ↔
      Offers tree directory manifest.baseName manifest := by
  unfold inDirectory
  cases hlist : tree.list directory with
  | error cause =>
    refine iff_of_false List.not_mem_nil fun h => ?_
    obtain ⟨_, ⟨_, _, _, _, _, hdirectory, -⟩, -⟩ := h.parsed
    obtain ⟨names, hnames⟩ := FileTree.exists_list hdirectory
    rw [hlist] at hnames
    cases hnames
  | ok names =>
    simp only [List.mem_filterMap, List.mem_mergeSort, List.mem_filter,
      ← offers_iff hplain hlist]
    constructor
    · rintro ⟨name, h⟩
      rwa [h.baseName_eq hplain]
    · exact fun h => ⟨_, h⟩

/-- They come in the order of their names. -/
theorem pairwise_inDirectory (hplain : tree.PlainNames) (directory : Path) :
    (inDirectory tree directory).Pairwise fun manifest other =>
      manifest.baseName ≤ other.baseName := by
  unfold inDirectory
  cases hlist : tree.list directory with
  | error cause => exact .nil
  | ok names =>
    have hsorted : ((names.filter isManifestName).mergeSort fun a b => decide (a ≤ b)).Pairwise
        fun a b => decide (a ≤ b) = true :=
      List.pairwise_mergeSort (fun a b c => by simpa using String.le_trans)
        (fun a b => by simpa using String.le_total a b) _
    rw [List.pairwise_filterMap]
    refine hsorted.imp_of_mem fun {name name'} hmem hmem' hle manifest h manifest' h' => ?_
    rw [List.mem_mergeSort, List.mem_filter] at hmem hmem'
    rw [((offers_iff hplain hlist).mpr ⟨hmem, h⟩).baseName_eq hplain,
      ((offers_iff hplain hlist).mpr ⟨hmem', h'⟩).baseName_eq hplain]
    exact of_decide_eq_true hle

/-! ## The first of each name -/

variable {manifests more : List Manifest}

theorem firstOfEach_snoc :
    firstOfEach (manifests ++ [manifest]) =
      if manifest.baseName ∈ (firstOfEach manifests).map Manifest.baseName then
        firstOfEach manifests
      else firstOfEach manifests ++ [manifest] := by
  have hany : ∀ kept : List Manifest, kept.any (·.baseName == manifest.baseName) ↔
      manifest.baseName ∈ kept.reverse.map Manifest.baseName := by simp
  unfold firstOfEach
  rw [List.foldl_append, List.foldl_cons, List.foldl_nil]
  simp only [hany]
  split
  · rfl
  · exact List.reverse_cons

/-- No name is lost. -/
theorem mem_map_firstOfEach :
    name ∈ (firstOfEach manifests).map Manifest.baseName ↔
      name ∈ manifests.map Manifest.baseName := by
  induction manifests using List.reverseRecOn generalizing name with
  | nil => exact Iff.rfl
  | append_singleton manifests manifest ih =>
    rw [firstOfEach_snoc, List.map_append, List.map_singleton]
    split
    · -- the manifest is left out, but its name is there already
      next hkept =>
      rw [ih, List.mem_append, List.mem_singleton]
      refine ⟨.inl, ?_⟩
      rintro (h | rfl)
      · exact h
      · exact ih.mp hkept
    · rw [List.map_append, List.map_singleton, List.mem_append, List.mem_append, ih]

/-- No name occurs again. -/
theorem nodup_firstOfEach (manifests : List Manifest) :
    ((firstOfEach manifests).map Manifest.baseName).Nodup := by
  induction manifests using List.reverseRecOn with
  | nil => exact .nil
  | append_singleton manifests manifest ih =>
    rw [firstOfEach_snoc]
    split
    · exact ih
    · next hnew =>
      rw [List.map_append, List.map_singleton]
      exact List.nodup_append.mpr ⟨ih, by simp, by simpa using hnew⟩

/-- More manifests are added at the end, in their order, and only under new names. -/
theorem firstOfEach_append (manifests more : List Manifest) :
    ∃ added, firstOfEach (manifests ++ more) = firstOfEach manifests ++ added ∧
      added.Sublist more ∧
      ∀ manifest ∈ added, manifest.baseName ∉ manifests.map Manifest.baseName := by
  induction more using List.reverseRecOn with
  | nil => exact ⟨[], by simp, List.nil_sublist _, by simp⟩
  | append_singleton more manifest ih =>
    obtain ⟨added, hadded, hsublist, hnew⟩ := ih
    rw [← List.append_assoc, firstOfEach_snoc]
    split
    · exact ⟨added, hadded, hsublist.trans (List.sublist_append_left ..), hnew⟩
    · next hmanifest =>
      refine ⟨added ++ [manifest], by rw [hadded, List.append_assoc],
        hsublist.append (List.Sublist.refl _), fun other hother => ?_⟩
      rw [List.mem_append, List.mem_singleton] at hother
      rcases hother with hother | rfl
      · exact hnew other hother
      · rw [mem_map_firstOfEach, List.map_append, List.mem_append] at hmanifest
        exact fun h => hmanifest (.inl h)

/-! ## The directories one after another -/

/-- The manifest is what the directory of this number offers under its name, and the directories
before that one offer nothing under it. -/
structure ComesFrom (tree : FileTree) (directories : List Path) (number : Nat)
    (manifest : Manifest) : Prop where
  offered : ∃ directory, directories[number]? = some directory ∧
    Offers tree directory manifest.baseName manifest
  first : ∀ earlier ∈ directories.take number, ∀ other,
    ¬ Offers tree earlier manifest.baseName other

variable {directories : List Path} {number : Nat}

theorem ComesFrom.snoc (h : ComesFrom tree directories number manifest) :
    ComesFrom tree (directories ++ [directory]) number manifest := by
  obtain ⟨there, hthere, hoffers⟩ := h.offered
  have hlt : number < directories.length := (List.getElem?_eq_some_iff.mp hthere).1
  refine ⟨⟨there, by rw [List.getElem?_append_left hlt, hthere], hoffers⟩, ?_⟩
  rw [List.take_append_of_le_length (by omega)]
  exact h.first

theorem comesFrom_last :
    ComesFrom tree (directories ++ [directory]) directories.length manifest ↔
      Offers tree directory manifest.baseName manifest ∧
        ∀ earlier ∈ directories, ∀ other, ¬ Offers tree earlier manifest.baseName other := by
  constructor
  · rintro ⟨⟨there, hthere, hoffers⟩, hfirst⟩
    rw [List.getElem?_concat_length, Option.some.injEq] at hthere
    rw [List.take_left] at hfirst
    exact ⟨hthere ▸ hoffers, hfirst⟩
  · rintro ⟨hoffers, hfirst⟩
    refine ⟨⟨directory, List.getElem?_concat_length, hoffers⟩, ?_⟩
    rwa [List.take_left]

/-- With one more directory a manifest comes from where it came from, or from the new one. -/
theorem ComesFrom.of_snoc (h : ComesFrom tree (directories ++ [directory]) number manifest) :
    ComesFrom tree directories number manifest ∨ number = directories.length := by
  obtain ⟨there, hthere, hoffers⟩ := h.offered
  have hlength := (List.getElem?_eq_some_iff.mp hthere).1
  rw [List.length_append, List.length_singleton] at hlength
  by_cases hlt : number < directories.length
  · have hfirst := h.first
    rw [List.getElem?_append_left hlt] at hthere
    rw [List.take_append_of_le_length (by omega)] at hfirst
    exact .inl ⟨⟨there, hthere, hoffers⟩, hfirst⟩
  · exact .inr (by omega)

/-- A name is there if one of the directories offers a manifest under it. -/
theorem mem_map_load_iff (hplain : tree.PlainNames) :
    name ∈ (load tree directories).map Manifest.baseName ↔
      ∃ directory ∈ directories, ∃ manifest, Offers tree directory name manifest := by
  rw [load, mem_map_firstOfEach, List.mem_map]
  simp only [List.mem_flatMap, mem_inDirectory_iff hplain]
  constructor
  · rintro ⟨manifest, ⟨directory, hdirectory, h⟩, rfl⟩
    exact ⟨directory, hdirectory, manifest, h⟩
  · rintro ⟨directory, hdirectory, manifest, h⟩
    obtain rfl := h.baseName_eq hplain
    exact ⟨manifest, ⟨directory, hdirectory, h⟩, rfl⟩

/-- More directories add manifests at the end, under new names. -/
theorem load_append (tree : FileTree) (directories more : List Path) :
    ∃ added, load tree (directories ++ more) = load tree directories ++ added ∧
      added.Sublist (more.flatMap (inDirectory tree)) ∧
      ∀ manifest ∈ added,
        manifest.baseName ∉ (load tree directories).map Manifest.baseName := by
  obtain ⟨added, hadded, hsublist, hnew⟩ :=
    firstOfEach_append (directories.flatMap (inDirectory tree)) (more.flatMap (inDirectory tree))
  refine ⟨added, by rw [load, List.flatMap_append, hadded, load], hsublist, fun manifest hmem => ?_⟩
  rw [load, mem_map_firstOfEach]
  exact hnew manifest hmem

/-- One more directory adds what it offers under names that were not there before. -/
theorem load_snoc (hplain : tree.PlainNames) (directories : List Path) (directory : Path) :
    ∃ added, load tree (directories ++ [directory]) = load tree directories ++ added ∧
      added.Sublist (inDirectory tree directory) ∧
      ∀ manifest, manifest ∈ added ↔
        ComesFrom tree (directories ++ [directory]) directories.length manifest := by
  obtain ⟨added, hload, hsublist, hnew⟩ := load_append tree directories [directory]
  rw [List.flatMap_singleton] at hsublist
  have hoffers : ∀ manifest ∈ added, Offers tree directory manifest.baseName manifest :=
    fun manifest hmem => (mem_inDirectory_iff hplain).mp (hsublist.subset hmem)
  refine ⟨added, hload, hsublist, fun manifest => ?_⟩
  rw [comesFrom_last]
  constructor
  · intro hmem
    refine ⟨hoffers manifest hmem, fun earlier hearlier other hother => ?_⟩
    exact hnew manifest hmem ((mem_map_load_iff hplain).mpr ⟨earlier, hearlier, other, hother⟩)
  · rintro ⟨hoffered, hfirst⟩
    -- the name is there now, and what stands for it can only be this manifest
    have hname : manifest.baseName ∈ (load tree (directories ++ [directory])).map
        Manifest.baseName :=
      (mem_map_load_iff hplain).mpr ⟨directory, by simp, manifest, hoffered⟩
    rw [hload, List.map_append, List.mem_append] at hname
    rcases hname with hname | hname
    · obtain ⟨earlier, hearlier, other, hother⟩ := (mem_map_load_iff hplain).mp hname
      exact absurd hother (hfirst earlier hearlier other)
    · obtain ⟨other, hmem, heq⟩ := List.mem_map.mp hname
      have hother := hoffers other hmem
      rw [heq] at hother
      rwa [hoffered.unique hother]

/-- What is loaded is what comes from one of the directories. The induction is on the directories
from the last one, since a directory sees what those before it offer. -/
theorem mem_load_iff (hplain : tree.PlainNames) :
    manifest ∈ load tree directories ↔ ∃ number, ComesFrom tree directories number manifest := by
  induction directories using List.reverseRecOn with
  | nil =>
    refine iff_of_false List.not_mem_nil ?_
    rintro ⟨number, ⟨directory, hdirectory, -⟩, -⟩
    cases hdirectory
  | append_singleton directories directory ih =>
    obtain ⟨added, hload, -, hadded⟩ := load_snoc hplain directories directory
    rw [hload, List.mem_append, hadded, ih]
    constructor
    · rintro (⟨number, h⟩ | h)
      · exact ⟨number, h.snoc⟩
      · exact ⟨_, h⟩
    · rintro ⟨number, h⟩
      rcases h.of_snoc with h' | rfl
      · exact .inl ⟨number, h'⟩
      · exact .inr h

/-- The manifests come in the order of their directories, and those of one directory in the order
of their names. -/
theorem pairwise_load (hplain : tree.PlainNames) (directories : List Path) :
    (load tree directories).Pairwise fun manifest manifest' => ∃ number number',
      ComesFrom tree directories number manifest ∧ ComesFrom tree directories number' manifest' ∧
        (number < number' ∨ number = number' ∧ manifest.baseName < manifest'.baseName) := by
  induction directories using List.reverseRecOn with
  | nil => exact .nil
  | append_singleton directories directory ih =>
    obtain ⟨added, hload, hsublist, hadded⟩ := load_snoc hplain directories directory
    have hdistinct : added.Pairwise fun manifest manifest' =>
        manifest.baseName ≠ manifest'.baseName := by
      have hnodup := nodup_firstOfEach ((directories ++ [directory]).flatMap (inDirectory tree))
      rw [← load, hload, List.map_append, List.nodup_append] at hnodup
      exact List.pairwise_map.mp hnodup.2.1
    rw [hload, List.pairwise_append]
    -- those that were there, those that are new, and one of each
    refine ⟨ih.imp ?_, ?_, fun manifest hmem manifest' hmem' => ?_⟩
    · rintro manifest manifest' ⟨number, number', h, h', hlt⟩
      exact ⟨number, number', h.snoc, h'.snoc, hlt⟩
    · refine (((pairwise_inDirectory hplain directory).sublist hsublist).and
        hdistinct).imp_of_mem fun {manifest manifest'} hmem hmem' h => ?_
      refine ⟨_, _, (hadded _).mp hmem, (hadded _).mp hmem', .inr ⟨rfl, ?_⟩⟩
      exact Decidable.byContradiction fun hlt =>
        h.2 (String.le_antisymm h.1 (String.not_lt.mp hlt))
    · obtain ⟨number, h⟩ := (mem_load_iff hplain).mp hmem
      obtain ⟨there, hthere, -⟩ := h.offered
      exact ⟨number, _, h.snoc, (hadded _).mp hmem',
        .inl (List.getElem?_eq_some_iff.mp hthere).1⟩

/-! ## What is loaded -/

/-- The manifests that stand for the names in some directories. -/
structure Shadows (tree : FileTree) (directories : List Path) (manifests : List Manifest) :
    Prop where
  /-- No two of them have the same name. -/
  distinct : (manifests.map Manifest.baseName).Nodup
  /-- There is one of a name exactly if one of the directories offers one. -/
  names : ∀ name, name ∈ manifests.map Manifest.baseName ↔
    ∃ directory ∈ directories, ∃ manifest, Offers tree directory name manifest
  /-- It is that of the first directory to offer one. -/
  first : ∀ manifest, manifest ∈ manifests ↔
    ∃ number, ComesFrom tree directories number manifest
  /-- They come in the order of their directories, and those of one directory in the order of the
  bytes of their names. -/
  ordered : manifests.Pairwise fun manifest manifest' => ∃ number number',
    ComesFrom tree directories number manifest ∧ ComesFrom tree directories number' manifest' ∧
      (number < number' ∨ number = number' ∧
        Utf8.Before (utf8 manifest.baseName) (utf8 manifest'.baseName))

theorem shadows_load (hplain : tree.PlainNames) (directories : List Path) :
    Shadows tree directories (load tree directories) where
  distinct := nodup_firstOfEach _
  names := fun _ => mem_map_load_iff hplain
  first := fun _ => mem_load_iff hplain
  ordered := by
    refine (pairwise_load hplain directories).imp ?_
    rintro manifest manifest' ⟨number, number', h, h', hlt | ⟨heq, hlt⟩⟩
    · exact ⟨number, number', h, h', .inl hlt⟩
    · exact ⟨number, number', h, h', .inr ⟨heq, Utf8.before_utf8 hlt⟩⟩

/-- What a directory offers is there if no directory before it offers anything of that name. -/
theorem mem_load_of_offers {before after : List Path} (hplain : tree.PlainNames)
    (h : Offers tree directory name manifest)
    (hbefore : ∀ earlier ∈ before, ∀ other, ¬ Offers tree earlier name other) :
    manifest ∈ load tree (before ++ directory :: after) := by
  obtain rfl := h.baseName_eq hplain
  refine (mem_load_iff hplain).mpr ⟨before.length, ⟨directory, by simp, h⟩, ?_⟩
  rwa [List.take_left]

/-- Directories that are listed already add nothing. -/
theorem load_again (hplain : tree.PlainNames) {again : List Path}
    (h : ∀ directory ∈ again, directory ∈ directories) :
    load tree (directories ++ again) = load tree directories := by
  obtain ⟨added, hload, hsublist, hnew⟩ := load_append tree directories again
  suffices hnone : added = [] by rw [hload, hnone, List.append_nil]
  refine List.eq_nil_iff_forall_not_mem.mpr fun manifest hmem => hnew manifest hmem ?_
  obtain ⟨directory, hdirectory, hmanifest⟩ := List.mem_flatMap.mp (hsublist.subset hmem)
  exact (mem_map_load_iff hplain).mpr
    ⟨directory, h directory hdirectory, manifest, (mem_inDirectory_iff hplain).mp hmanifest⟩

/-- **Of the manifests of one name the first that can be read stands for all.** What cannot be read
hides nothing, more directories only add manifests at the end, and directories that are listed
already add none. -/
theorem load_shadows (tree : FileTree) (hplain : tree.PlainNames) (directories : List Path) :
    Shadows tree directories (load tree directories) ∧
      (∀ before directory after name manifest, directories = before ++ directory :: after →
        (∀ earlier ∈ before, ∀ other, ¬ Offers tree earlier name other) →
          Offers tree directory name manifest → manifest ∈ load tree directories) ∧
      (∀ more, load tree directories <+: load tree (directories ++ more)) ∧
      ∀ again, (∀ directory ∈ again, directory ∈ directories) →
        load tree (directories ++ again) = load tree directories := by
  refine ⟨shadows_load hplain directories, ?_, fun more => ?_, fun again => load_again hplain⟩
  · rintro before directory after name manifest rfl hbefore h
    exact mem_load_of_offers hplain h hbefore
  · obtain ⟨added, hload, -⟩ := load_append tree directories more
    exact ⟨added, hload.symm⟩

/-- Two directories with a file of one name, and only the second one is a manifest. -/
def brokenFirst : FileTree where
  nodes := [(["user"], .directory 0o755), (["a.desktop", "user"], .file 0 (utf8 "Exec=a") 0),
    (["system"], .directory 0o755),
    (["a.desktop", "system"], .file 1 (utf8 "[Desktop Entry]\nExec=a") 0)]

/-- A directory that is missing and a file that is no manifest hide nothing. -/
theorem load_shadows_broken :
    brokenFirst.PlainNames ∧
      Shadows brokenFirst [⟨"/gone"⟩, ⟨"/user"⟩, ⟨"/system"⟩]
        (load brokenFirst [⟨"/gone"⟩, ⟨"/user"⟩, ⟨"/system"⟩]) ∧
      ⟨⟨"/system/a.desktop"⟩, [("Exec", "a")]⟩ ∈
        load brokenFirst [⟨"/gone"⟩, ⟨"/user"⟩, ⟨"/system"⟩] := by
  have hplain : brokenFirst.PlainNames := by decide
  obtain ⟨hshadows, hfirst, -⟩ :=
    load_shadows brokenFirst hplain [⟨"/gone"⟩, ⟨"/user"⟩, ⟨"/system"⟩]
  refine ⟨hplain, hshadows, hfirst [⟨"/gone"⟩, ⟨"/user"⟩] ⟨"/system"⟩ [] "a.desktop" _ rfl ?_ ?_⟩
  · intro earlier hearlier other h
    obtain ⟨text, ⟨place, mode, identity, contents, modified, hdirectory, hfile, hdecode⟩, hparse⟩ :=
      h.parsed
    simp only [List.mem_cons, List.not_mem_nil, or_false] at hearlier
    rcases hearlier with rfl | rfl
    · have hgone : brokenFirst.find ⟨"/gone"⟩ = .error .notFound := rfl
      cases hgone.symm.trans hdirectory
    · have hbroken : brokenFirst.find ((⟨"/user"⟩ : Path).entry "a.desktop") =
          .ok (["a.desktop", "user"], .file 0 (utf8 "Exec=a") 0) := rfl
      cases hbroken.symm.trans hfile
      cases hdecode
      cases hparse
  · refine ⟨⟨"a", by decide, rfl⟩, "[Desktop Entry]\nExec=a", ?_, rfl⟩
    exact ⟨["system"], 0o755, 1, utf8 "[Desktop Entry]\nExec=a", 0, rfl, rfl, rfl⟩

end Autostart

end Xsmp
