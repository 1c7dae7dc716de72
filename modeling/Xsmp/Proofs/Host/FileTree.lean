import Xsmp.Host.FileTree

/-!
# What an operation on one file leaves alone

The ways through a tree are its directories, so an operation on a plain file changes
nothing but what its own path leads to, and other paths that lead to the same place. A path
with a longer last name leads to another place than the path itself, and two such paths with
different endings lead to two places.
-/

namespace Xsmp

/-! ## The last part of a path -/

namespace Text

variable {α : Type} [BEq α]

/-- What follows without a separator only makes the last piece longer. -/
theorem exists_pieces_go_append (separator : α) (xs piece : List α) (done : List (List α)) :
    ∃ outer last, ∀ ys, (∀ y ∈ ys, (y == separator) = false) →
      pieces.go separator (xs ++ ys) piece done = outer ++ [last ++ ys] := by
  induction xs generalizing piece done with
  | nil =>
    refine ⟨done.reverse, piece.reverse, fun ys h => ?_⟩
    have plain : ∀ (ys piece : List α), (∀ y ∈ ys, (y == separator) = false) →
        pieces.go separator ys piece done = done.reverse ++ [piece.reverse ++ ys] := by
      intro ys
      induction ys with
      | nil => intro piece _; simp [pieces.go]
      | cons y ys ih =>
        intro piece h
        rw [pieces.go, h y List.mem_cons_self, if_neg Bool.false_ne_true,
          ih _ fun y hy => h y (List.mem_cons_of_mem _ hy)]
        simp
    exact plain ys piece h
  | cons x xs ih =>
    simp only [List.cons_append, pieces.go]
    split
    · exact ih _ _
    · exact ih _ _

end Text

namespace Path

/-- A longer last name is the last part of a path; the parts before it are those of the path
itself. -/
theorem exists_parts_extend (path : Path) :
    ∃ outer last, path.parts = outer ++ [last] ∧
      ∀ ending : String, '/' ∉ ending.toList →
        (path.extend ending).parts = outer ++ [last ++ ending] := by
  obtain ⟨outer, last, h⟩ := Text.exists_pieces_go_append '/' path.text.toList [] []
  refine ⟨outer.map String.ofList, String.ofList last, ?_, fun ending hending => ?_⟩
  · have hplain := h [] (by simp)
    simp only [List.append_nil] at hplain
    simp [parts, Text.pieces, hplain]
  · have hplain := h ending.toList fun c hc => by
      simpa using fun hslash : c = '/' => hending (hslash ▸ hc)
    simp [parts, Text.pieces, extend, String.toList_append, hplain]

end Path

namespace FileTree

variable {tree before after : FileTree} {place : Place} {node : Node} {path other : Path}

/-! ## Places -/

theorem lookup_filter_ne {nodes : List (Place × Node)} {other : Place} (h : other ≠ place) :
    (nodes.filter (·.1 != place)).lookup other = nodes.lookup other := by
  induction nodes with
  | nil => rfl
  | cons entry nodes ih =>
    obtain ⟨at', node⟩ := entry
    by_cases hplace : at' = place
    · subst hplace
      have hother : (other == at') = false := beq_eq_false_iff_ne.mpr h
      simp only [List.filter_cons, bne_self_eq_false, Bool.false_eq_true, if_false,
        List.lookup_cons, hother, ih]
    · simp only [List.filter_cons, bne_iff_ne, ne_eq, hplace, not_false_eq_true, if_true,
        List.lookup_cons, ih]

theorem lookup_filter_self {nodes : List (Place × Node)} :
    (nodes.filter (·.1 != place)).lookup place = none := by
  rw [List.lookup_eq_none_iff]
  intro entry hentry
  exact bne_iff_ne.mpr (Ne.symm (bne_iff_ne.mp (List.mem_filter.mp hentry).2))

theorem node?_put_of_ne {other : Place} (h : other ≠ place) :
    (tree.put place node).node? other = tree.node? other := by
  have hother : (other == place) = false := beq_eq_false_iff_ne.mpr h
  simp only [node?, put, List.lookup_cons, hother, lookup_filter_ne h]

theorem node?_erase_self (h : place ≠ []) : (tree.erase place).node? place = none := by
  simp [node?, erase, lookup_filter_self, h]

theorem node?_erase_of_ne {other : Place} (h : other ≠ place) :
    (tree.erase place).node? other = tree.node? other := by
  simp [node?, erase, lookup_filter_ne h]

/-! ## Ways through a tree -/

/-- Two trees with the same directories at the same places. -/
structure SameDirectories (before after : FileTree) : Prop where
  workingDirectory : after.workingDirectory = before.workingDirectory
  directory : ∀ place mode,
    after.node? place = some (.directory mode) ↔ before.node? place = some (.directory mode)

namespace SameDirectories

theorem refl (tree : FileTree) : SameDirectories tree tree := ⟨rfl, fun _ _ => Iff.rfl⟩

theorem trans {middle : FileTree} (h : SameDirectories before middle)
    (h' : SameDirectories middle after) : SameDirectories before after :=
  ⟨h'.workingDirectory.trans h.workingDirectory,
    fun place mode => (h'.directory place mode).trans (h.directory place mode)⟩

theorem symm (h : SameDirectories before after) : SameDirectories after before :=
  ⟨h.workingDirectory.symm, fun place mode => (h.directory place mode).symm⟩

theorem enter_ok (h : SameDirectories before after) {next : Place} {part : String}
    (hok : before.enter place part = .ok next) : after.enter place part = .ok next := by
  unfold enter at hok ⊢
  cases hnode : before.node? place with
  | none => rw [hnode] at hok; cases hok
  | some node =>
    cases node with
    | directory mode =>
      rw [hnode] at hok
      rw [(h.directory place mode).mpr hnode]
      exact hok
    | file identity contents modified => rw [hnode] at hok; cases hok
    | socket => rw [hnode] at hok; cases hok

theorem foldlM_enter_ok (h : SameDirectories before after) {next : Place} {parts : List String}
    (hok : parts.foldlM before.enter place = .ok next) :
    parts.foldlM after.enter place = .ok next := by
  induction parts generalizing place with
  | nil => exact hok
  | cons part parts ih =>
    rw [List.foldlM_cons] at hok ⊢
    cases hpart : before.enter place part with
    | error cause => rw [hpart] at hok; cases hok
    | ok middle =>
      rw [hpart] at hok
      rw [h.enter_ok hpart]
      exact ih hok

theorem locate_ok (h : SameDirectories before after)
    (hok : before.locate path = .ok place) : after.locate path = .ok place := by
  unfold locate at hok ⊢
  cases hpath : checkPath path with
  | error cause => rw [hpath] at hok; cases hok
  | ok checked =>
    rw [hpath] at hok
    simp only [Bind.bind, Except.bind] at hok ⊢
    split
    · rw [if_pos ‹_›] at hok; cases hok
    · rw [if_neg ‹_›] at hok
      rw [start, h.workingDirectory]
      exact h.foldlM_enter_ok hok

/-- Paths lead to the same places. -/
theorem locate_ok_iff (h : SameDirectories before after) :
    after.locate path = .ok place ↔ before.locate path = .ok place :=
  ⟨h.symm.locate_ok, h.locate_ok⟩

end SameDirectories

/-! ## What a path leads to -/

/-- What a path leads to and where that stands, if anything does. -/
def found? (tree : FileTree) (path : Path) : Option (Place × Node) := (tree.find path).toOption

theorem found?_eq_some_iff :
    tree.found? path = some (place, node) ↔
      tree.locate path = .ok place ∧ tree.node? place = some node := by
  unfold found? find
  cases hplace : tree.locate path with
  | error cause => simp [Bind.bind, Except.bind, Except.toOption]
  | ok found =>
    cases hnode : tree.node? found with
    | none =>
      simp only [Bind.bind, Except.bind, hnode]
      constructor
      · intro h; cases h
      · rintro ⟨hok, h⟩
        cases hok
        rw [hnode] at h; cases h
    | some there =>
      simp only [Bind.bind, Except.bind, hnode]
      constructor
      · intro h
        cases h
        exact ⟨rfl, hnode⟩
      · rintro ⟨hok, h⟩
        cases hok
        rw [hnode] at h
        cases h
        rfl

theorem find_eq_ok_iff {found : Place × Node} :
    tree.find path = .ok found ↔ tree.found? path = some found := by
  unfold found?
  cases tree.find path with
  | error cause => simp [Except.toOption]
  | ok there => simp [Except.toOption]

theorem locate_of_find (h : tree.find path = .ok (place, node)) : tree.locate path = .ok place :=
  (found?_eq_some_iff.mp (find_eq_ok_iff.mp h)).1

theorem node?_of_find (h : tree.find path = .ok (place, node)) : tree.node? place = some node :=
  (found?_eq_some_iff.mp (find_eq_ok_iff.mp h)).2

theorem found?_eq_none_of_node? (hplace : tree.locate path = .ok place)
    (hnode : tree.node? place = none) : tree.found? path = none := by
  cases hfound : tree.found? path with
  | none => rfl
  | some found =>
    obtain ⟨hok, h⟩ := found?_eq_some_iff.mp hfound
    rw [hplace] at hok
    cases hok
    rw [hnode] at h; cases h

/-- A path leads to what it led to, if nothing has changed on the way and at its end. -/
theorem found?_congr (hsame : SameDirectories before after)
    (h : ∀ place, before.locate path = .ok place → after.node? place = before.node? place) :
    after.found? path = before.found? path := by
  refine Option.ext fun ⟨place, node⟩ => ?_
  rw [found?_eq_some_iff, found?_eq_some_iff, hsame.locate_ok_iff]
  exact and_congr_right fun hplace => by rw [h place hplace]

/-! ## Changes of one place -/

/-- One place has changed, where no directory was before or is now. -/
structure ChangesOnly (place : Place) (before after : FileTree) : Prop where
  same : SameDirectories before after
  other : ∀ other, other ≠ place → after.node? other = before.node? other

namespace ChangesOnly

theorem of_node? (hwork : after.workingDirectory = before.workingDirectory)
    (hother : ∀ other, other ≠ place → after.node? other = before.node? other)
    (hbefore : ∀ mode, before.node? place ≠ some (.directory mode))
    (hafter : ∀ mode, after.node? place ≠ some (.directory mode)) :
    ChangesOnly place before after where
  other := hother
  same := by
    refine ⟨hwork, fun other mode => ?_⟩
    by_cases h : other = place
    · subst h
      exact iff_of_false (hafter mode) (hbefore mode)
    · rw [hother other h]

/-- What another path leads to is as before. -/
theorem found?_of_ne (h : ChangesOnly place before after)
    (hplace : before.locate path ≠ .ok place) : after.found? path = before.found? path :=
  found?_congr h.same fun other hother =>
    h.other other fun heq => hplace (heq ▸ hother)

theorem found?_of_node? (h : ChangesOnly place before after)
    (hplace : before.locate path = .ok place) (hnode : after.node? place = some node) :
    after.found? path = some (place, node) :=
  found?_eq_some_iff.mpr ⟨h.same.locate_ok hplace, hnode⟩

theorem found?_of_node?_none (h : ChangesOnly place before after)
    (hplace : before.locate path = .ok place) (hnode : after.node? place = none) :
    after.found? path = none :=
  found?_eq_none_of_node? (h.same.locate_ok hplace) hnode

end ChangesOnly

theorem put_changesOnly (hbefore : ∀ mode, tree.node? place ≠ some (.directory mode))
    (hnode : node.isDirectory = false) : ChangesOnly place tree (tree.put place node) := by
  refine .of_node? rfl (fun _ => node?_put_of_ne) hbefore fun mode hmode => ?_
  rw [node?_put_self, Option.some.injEq] at hmode
  subst hmode
  cases hnode

theorem putFile_changesOnly (hnone : tree.node? place = none) (contents : Bytes) (now : Int) :
    ChangesOnly place tree (tree.putFile place contents now) :=
  have hput : ChangesOnly place tree (tree.put place (.file tree.nextIdentity contents now)) :=
    put_changesOnly (by simp [hnone]) rfl
  ⟨⟨hput.same.workingDirectory, hput.same.directory⟩, hput.other⟩

theorem erase_changesOnly (hbefore : ∀ mode, tree.node? place ≠ some (.directory mode))
    (hplace : place ≠ []) : ChangesOnly place tree (tree.erase place) := by
  refine .of_node? rfl (fun _ => node?_erase_of_ne) hbefore fun mode hmode => ?_
  rw [node?_erase_self hplace] at hmode
  cases hmode

/-! ## What succeeds -/

theorem locate_of_locateNew (h : tree.locateNew path = .ok place) :
    tree.locate path = .ok place := by
  unfold locateNew at h
  cases hpath : checkPath path with
  | error cause => rw [hpath] at h; cases h
  | ok checked =>
    rw [hpath] at h
    simp only [Bind.bind, Except.bind] at h
    split at h
    · split at h <;> cases h
    · exact h

/-- A file is made where nothing stands. -/
theorem create_ok {now : Int} (h : tree.create path now = .ok after) :
    ∃ place identity, tree.locate path = .ok place ∧ tree.node? place = none ∧
      ChangesOnly place tree after ∧ after.node? place = some (.file identity [] now) := by
  unfold create at h
  cases hplace : tree.locateNew path with
  | error cause => rw [hplace] at h; cases h
  | ok place =>
    rw [hplace] at h
    simp only [Bind.bind, Except.bind] at h
    split at h
    · rename_i hnone
      cases h
      exact ⟨place, tree.nextIdentity, locate_of_locateNew hplace, hnone,
        putFile_changesOnly hnone [] now, node?_put_self tree place _⟩
    · cases h

/-- A plain file is linked to a place where nothing stands. -/
theorem link_ok {source : Place} (h : tree.link path other = .ok after)
    (hfound : tree.found? path = some (source, node)) (hnode : node.isDirectory = false) :
    ∃ place, tree.locate other = .ok place ∧ tree.node? place = none ∧
      ChangesOnly place tree after ∧ after.node? place = some node := by
  unfold link at h
  rw [find_eq_ok_iff.mpr hfound] at h
  simp only [Bind.bind, Except.bind] at h
  cases hplace : tree.locate other with
  | error cause => rw [hplace] at h; cases h
  | ok place =>
    rw [hplace] at h
    simp only at h
    split at h
    · rename_i hnone
      cases h
      exact ⟨place, rfl, hnone, put_changesOnly (by simp [hnone]) hnode,
        node?_put_self tree place _⟩
    · cases h

/-- A plain file that a path leads to can be removed. -/
theorem remove_file (hfound : tree.found? path = some (place, node))
    (hnode : node.isDirectory = false) (hplace : place ≠ []) :
    tree.remove path = .ok (tree.erase place) ∧ ChangesOnly place tree (tree.erase place) ∧
      (tree.erase place).node? place = none := by
  have hbefore := (found?_eq_some_iff.mp hfound).2
  refine ⟨?_, erase_changesOnly ?_ hplace, node?_erase_self hplace⟩
  · unfold remove
    rw [find_eq_ok_iff.mpr hfound]
    cases node with
    | directory mode => cases hnode
    | file identity contents modified => rfl
    | socket => rfl
  · intro mode hmode
    rw [hbefore, Option.some.injEq] at hmode
    subst hmode
    cases hnode

/-- What is removed is no directory. -/
theorem remove_ok (h : tree.remove path = .ok after) :
    ∃ place node, tree.found? path = some (place, node) ∧ node.isDirectory = false ∧
      after = tree.erase place := by
  unfold remove at h
  cases hfind : tree.find path with
  | error cause => rw [hfind] at h; cases h
  | ok found =>
    obtain ⟨place, node⟩ := found
    rw [hfind] at h
    refine ⟨place, node, find_eq_ok_iff.mp hfind, ?_⟩
    cases node with
    | directory mode => cases h
    | file identity contents modified => cases h; exact ⟨rfl, rfl⟩
    | socket => cases h; exact ⟨rfl, rfl⟩

theorem remove_of_absent (h : tree.found? path = none) :
    (tree.remove path).toOption.getD tree = tree := by
  cases hremove : tree.remove path with
  | error cause => rfl
  | ok after =>
    obtain ⟨place, node, hfound, -⟩ := remove_ok hremove
    rw [h] at hfound
    cases hfound

theorem read_of_found? {identity : Nat} {contents : Bytes} {modified : Int}
    (h : tree.found? path = some (place, .file identity contents modified)) :
    tree.read path = .ok contents := by
  unfold read
  rw [find_eq_ok_iff.mpr h]
  rfl

/-- A path to the same place is read alike, if the same stands there. -/
theorem read_congr (hplace : before.locate path = .ok place)
    (hplace' : after.locate path = .ok place) (h : after.node? place = before.node? place) :
    after.read path = before.read path := by
  unfold read find
  rw [hplace, hplace']
  simp only [Bind.bind, Except.bind, h]

/-! ## Writing -/

/-- What becomes of a node when the file of an identity is written anew. -/
def rewritten (identity : Nat) (contents : Bytes) (now : Int) : Node → Node
  | .file other old modified =>
    if other = identity then .file identity contents now else .file other old modified
  | node => node

theorem lookup_map_snd (f : Node → Node) (nodes : List (Place × Node)) (place : Place) :
    (nodes.map fun (there, node) => (there, f node)).lookup place =
      (nodes.lookup place).map f := by
  induction nodes with
  | nil => rfl
  | cons entry nodes ih =>
    obtain ⟨there, node⟩ := entry
    rw [List.map_cons, List.lookup_cons, List.lookup_cons, ih]
    cases place == there <;> rfl

theorem node?_overwrite (tree : FileTree) (identity : Nat) (contents : Bytes) (now : Int)
    (place : Place) :
    (tree.overwrite identity contents now).node? place =
      (tree.node? place).map (rewritten identity contents now) := by
  have hnodes : (tree.overwrite identity contents now).nodes =
      tree.nodes.map fun (there, node) => (there, rewritten identity contents now node) := by
    refine List.map_congr_left fun (there, node) _ => ?_
    cases node with
    | file other old modified => simp only [rewritten]; split <;> rfl
    | directory mode => rfl
    | socket => rfl
  unfold node?
  rw [hnodes, lookup_map_snd]
  cases tree.nodes.lookup place with
  | none => simp only [Option.map_none]; split <;> rfl
  | some node => rfl

/-- Writing a file leaves the directories alone. -/
theorem overwrite_sameDirectories (tree : FileTree) (identity : Nat) (contents : Bytes)
    (now : Int) : SameDirectories tree (tree.overwrite identity contents now) := by
  refine ⟨rfl, fun place mode => ?_⟩
  rw [node?_overwrite, Option.map_eq_some_iff]
  constructor
  · rintro ⟨node, hnode, hmode⟩
    cases node with
    | directory mode => exact hnode.trans (congrArg some hmode)
    | file other old modified => simp only [rewritten] at hmode; split at hmode <;> cases hmode
    | socket => cases hmode
  · exact fun hnode => ⟨_, hnode, rfl⟩

/-- What is written is read afterwards, and the way to the file was there before. -/
theorem write_ok {contents : Bytes} {now : Int} (h : tree.write path contents now = .ok after) :
    (∃ place, tree.locate path = .ok place) ∧ SameDirectories tree after ∧
      after.read path = .ok contents := by
  unfold write at h
  cases hplace : tree.locateNew path with
  | error cause => rw [hplace] at h; cases h
  | ok place =>
    have hlocate := locate_of_locateNew hplace
    rw [hplace] at h
    simp only [Bind.bind, Except.bind] at h
    refine ⟨⟨place, hlocate⟩, ?_⟩
    split at h
    · rename_i hnone
      cases h
      have honly := putFile_changesOnly hnone contents now
      exact ⟨honly.same, read_of_found?
        (honly.found?_of_node? hlocate (node?_put_self tree place _))⟩
    · rename_i identity old modified hfile
      cases h
      have hsame := overwrite_sameDirectories tree identity contents now
      have hnode : (tree.overwrite identity contents now).node? place =
          some (.file identity contents now) := by
        rw [node?_overwrite, hfile]
        simp only [Option.map_some, rewritten, if_true]
      exact ⟨hsame, read_of_found?
        (found?_eq_some_iff.mpr ⟨hsame.locate_ok hlocate, hnode⟩)⟩
    · cases h
    · cases h

/-! ## Where a longer last name leads -/

/-- One part of a path stays, leads back or leads on by its name. -/
theorem enter_cases {next : Place} {part : String} (h : tree.enter place part = .ok next) :
    (part ∈ ["", "."] ∧ next = place) ∨ (part = ".." ∧ next = place.tail) ∨
      next = part :: place := by
  unfold enter at h
  split at h
  · cases h
  · split at h
    · rename_i hstay
      cases h
      rw [Bool.or_eq_true, String.isEmpty_iff, beq_iff_eq] at hstay
      exact .inl ⟨by simpa using hstay, rfl⟩
    · split at h
      · rename_i hback
        cases h
        exact .inr (.inl ⟨beq_iff_eq.mp hback, rfl⟩)
      · split at h
        · cases h
        · cases h
          exact .inr (.inr rfl)
  · cases h

/-- A name is where the way goes on. -/
theorem enter_name {next : Place} {part : String} (h : tree.enter place part = .ok next)
    (hname : part ∉ ["", ".", ".."]) : next = part :: place := by
  obtain ⟨hstay, -⟩ | ⟨hback, -⟩ | hon := enter_cases h
  · exact absurd (List.mem_append_left [".."] hstay) hname
  · exact absurd (hback ▸ by simp) hname
  · exact hon

theorem foldlM_enter_snoc {next : Place} {outer : List String} {last : String}
    (h : (outer ++ [last]).foldlM tree.enter place = .ok next) :
    ∃ directory, outer.foldlM tree.enter place = .ok directory ∧
      tree.enter directory last = .ok next := by
  rw [List.foldlM_append] at h
  cases houter : outer.foldlM tree.enter place with
  | error cause => rw [houter] at h; cases h
  | ok directory =>
    rw [houter] at h
    refine ⟨directory, rfl, ?_⟩
    cases hlast : tree.enter directory last with
    | error cause => simp [Bind.bind, Except.bind, List.foldlM_cons, hlast] at h
    | ok place =>
      simpa [Bind.bind, Except.bind, List.foldlM_cons, hlast, pure, Except.pure] using h

theorem foldlM_of_locate (h : tree.locate path = .ok place) :
    path.parts.foldlM tree.enter (tree.start path) = .ok place := by
  unfold locate at h
  cases hpath : checkPath path with
  | error cause => rw [hpath] at h; cases h
  | ok checked =>
    rw [hpath] at h
    simp only [Bind.bind, Except.bind] at h
    split at h
    · cases h
    · exact h

theorem start_extend {ending : String} (hplain : '/' ∉ ending.toList) :
    tree.start (path.extend ending) = tree.start path := by
  have habsolute : (path.extend ending).isAbsolute = path.isAbsolute := by
    unfold Path.isAbsolute Path.extend
    rw [String.toList_append]
    cases htext : path.text.toList with
    | nil =>
      cases hending : ending.toList with
      | nil => rfl
      | cons c cs =>
        rw [hending] at hplain
        have hc : c ≠ '/' := fun h => hplain (h ▸ List.mem_cons_self)
        simp [hc]
    | cons c cs => rfl
  rw [start, start, habsolute]

/-- With a longer last name a path leads to a name in a directory; the path itself leads
there by the shorter name, or back. -/
theorem locate_extend {ending : String} (hplain : '/' ∉ ending.toList)
    (hname : ∀ last : String, last ++ ending ∉ ["", ".", ".."])
    (h : tree.locate (path.extend ending) = .ok place) :
    ∃ last directory, place = (last ++ ending) :: directory ∧
      ∀ whole, tree.locate path = .ok whole →
        whole = directory ∨ whole = directory.tail ∨ whole = last :: directory := by
  obtain ⟨outer, last, hparts, hextend⟩ := path.exists_parts_extend
  have hway := foldlM_of_locate h
  rw [hextend ending hplain, start_extend hplain] at hway
  obtain ⟨directory, houter, hlast⟩ := foldlM_enter_snoc hway
  refine ⟨last, directory, enter_name hlast (hname last), fun whole hwhole => ?_⟩
  have hway' := foldlM_of_locate hwhole
  rw [hparts] at hway'
  obtain ⟨directory', houter', hlast'⟩ := foldlM_enter_snoc hway'
  rw [houter] at houter'
  cases houter'
  obtain ⟨-, hwhole⟩ | ⟨-, hwhole⟩ | hwhole := enter_cases hlast'
  · exact .inl hwhole
  · exact .inr (.inl hwhole)
  · exact .inr (.inr hwhole)

end FileTree

end Xsmp
