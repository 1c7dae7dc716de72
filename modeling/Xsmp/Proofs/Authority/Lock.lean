import Xsmp.Authority.Lock
import Xsmp.Proofs.Host.FileTree

/-!
# What taking a lock leaves alone

The two lock files have places of their own, which are neither that of the authority file nor
that of a directory. Whatever comes of taking the lock or giving it back, everything else in
the file system is as it was.
-/

namespace Xsmp

/-! ## The two files -/

namespace LockFile

/-- The last letter of a lock file's name. -/
def letter : LockFile → Char
  | .created => 'c'
  | .linked => 'l'

theorem forall_ne_created {p : LockFile → Prop} (h : p .linked) : ∀ file ≠ created, p file
  | .created, hne => absurd rfl hne
  | .linked, _ => h

theorem forall_ne_linked {p : LockFile → Prop} (h : p .created) : ∀ file ≠ linked, p file
  | .created, _ => h
  | .linked, hne => absurd rfl hne

theorem ending_plain (file : LockFile) : '/' ∉ file.ending.toList := by
  cases file <;> decide

theorem getLast?_append_ending (file : LockFile) (last : String) :
    (last ++ file.ending).toList.getLast? = some file.letter := by
  rw [String.toList_append, List.getLast?_append]
  cases file <;> rfl

theorem append_ending_name (file : LockFile) (last : String) :
    last ++ file.ending ∉ ["", ".", ".."] := by
  intro h
  have hlast := file.getLast?_append_ending last
  simp only [List.mem_cons, List.not_mem_nil, or_false] at h
  rcases h with h | h | h <;> rw [h] at hlast <;> revert hlast <;> cases file <;> decide

theorem ending_injective {file other : LockFile} {last last' : String}
    (h : last ++ file.ending = last' ++ other.ending) : file = other := by
  have hletter : file.letter = other.letter := by
    rw [← Option.some.injEq, ← file.getLast?_append_ending last, h,
      other.getLast?_append_ending]
  revert hletter
  cases file <;> cases other <;> decide

variable {tree : FileTree} {path : Path} {place : Place} {file other : LockFile}

/-- A lock file is a name in a directory. -/
theorem place_ne_nil (h : tree.locate (file.of path) = .ok place) : place ≠ [] := by
  obtain ⟨last, directory, rfl, -⟩ :=
    FileTree.locate_extend file.ending_plain file.append_ending_name h
  exact List.cons_ne_nil _ _

/-- The two lock files have two places. -/
theorem locate_ne (hne : other ≠ file) (h : tree.locate (file.of path) = .ok place) :
    tree.locate (other.of path) ≠ .ok place := by
  intro h'
  obtain ⟨last, directory, rfl, -⟩ :=
    FileTree.locate_extend file.ending_plain file.append_ending_name h
  obtain ⟨last', directory', heq, -⟩ :=
    FileTree.locate_extend other.ending_plain other.append_ending_name h'
  exact hne (ending_injective (List.cons.inj heq).1).symm

/-- The authority file is in neither place. -/
theorem locate_path_ne (h : tree.locate (file.of path) = .ok place) :
    tree.locate path ≠ .ok place := by
  intro hpath
  obtain ⟨last, directory, rfl, hwhole⟩ :=
    FileTree.locate_extend file.ending_plain file.append_ending_name h
  rcases hwhole _ hpath with heq | heq | heq
  · have hlength := congrArg List.length heq
    rw [List.length_cons] at hlength
    omega
  · have hlength := congrArg List.length heq
    rw [List.length_cons, List.length_tail] at hlength
    omega
  · have hlast := congrArg (·.toList.length) (List.cons.inj heq).1
    simp only [String.toList_append, List.length_append] at hlast
    cases file <;> exact absurd hlast (by simp [ending])

end LockFile

/-- Whether a path leads to a plain file. -/
def FileTree.IsFile (found : Option (Place × Node)) : Prop :=
  ∃ place identity contents modified, found = some (place, .file identity contents modified)

namespace LockFile

/-! ## Beside the lock files -/

/-- Nothing has changed but at the places of the lock files. -/
structure Beside (path : Path) (before after : FileTree) : Prop where
  same : FileTree.SameDirectories before after
  other : ∀ place, (∀ file : LockFile, before.locate (file.of path) ≠ .ok place) →
    after.node? place = before.node? place

variable {path : Path} {place : Place} {before middle after : FileTree} {file other : LockFile}
  {now : Int}

namespace Beside

theorem refl (path : Path) (tree : FileTree) : Beside path tree tree :=
  ⟨.refl tree, fun _ _ => rfl⟩

theorem trans (h : Beside path before middle) (h' : Beside path middle after) :
    Beside path before after where
  same := h.same.trans h'.same
  other place hplace := by
    have hmiddle : ∀ file : LockFile, middle.locate (file.of path) ≠ .ok place :=
      fun file hfile => hplace file (h.same.locate_ok_iff.mp hfile)
    rw [h'.other place hmiddle, h.other place hplace]

theorem of_changesOnly (h : FileTree.ChangesOnly place before after)
    (hplace : before.locate (file.of path) = .ok place) : Beside path before after :=
  ⟨h.same, fun other hother => h.other other fun heq => hother file (heq ▸ hplace)⟩

/-- The authority file is read as before. -/
theorem read_eq (h : Beside path before after) (hplace : before.locate path = .ok place) :
    after.read path = before.read path :=
  FileTree.read_congr hplace (h.same.locate_ok hplace)
    (h.other place fun _ hfile => locate_path_ne hfile hplace)

end Beside

/-! ## Making and removing one -/

/-- One lock file has appeared, and nothing else has changed. -/
structure Made (path : Path) (file : LockFile) (before after : FileTree) : Prop where
  absent : before.found? (file.of path) = none
  isFile : FileTree.IsFile (after.found? (file.of path))
  other : ∀ other ≠ file, after.found? (other.of path) = before.found? (other.of path)
  beside : Beside path before after

/-- One lock file has gone, and nothing else has changed. -/
structure Removed (path : Path) (file : LockFile) (before after : FileTree) : Prop where
  absent : after.found? (file.of path) = none
  other : ∀ other ≠ file, after.found? (other.of path) = before.found? (other.of path)
  beside : Beside path before after

theorem found?_other (hplace : before.locate (file.of path) = .ok place)
    (honly : FileTree.ChangesOnly place before after) (hne : other ≠ file) :
    after.found? (other.of path) = before.found? (other.of path) :=
  honly.found?_of_ne (locate_ne hne hplace)

theorem made_create (h : before.create (LockFile.created.of path) now = .ok after) :
    Made path .created before after := by
  obtain ⟨place, identity, hplace, hnone, honly, hnode⟩ := FileTree.create_ok h
  exact ⟨FileTree.found?_eq_none_of_node? hplace hnone,
    ⟨place, identity, [], now, honly.found?_of_node? hplace hnode⟩,
    fun _ => found?_other hplace honly, .of_changesOnly honly hplace⟩

theorem made_link (hfile : FileTree.IsFile (before.found? (LockFile.created.of path)))
    (h : before.link (LockFile.created.of path) (LockFile.linked.of path) = .ok after) :
    Made path .linked before after := by
  obtain ⟨source, identity, contents, modified, hsource⟩ := hfile
  obtain ⟨place, hplace, hnone, honly, hnode⟩ := FileTree.link_ok h hsource rfl
  exact ⟨FileTree.found?_eq_none_of_node? hplace hnone,
    ⟨place, identity, contents, modified, honly.found?_of_node? hplace hnode⟩,
    fun _ => found?_other hplace honly, .of_changesOnly honly hplace⟩

theorem removed_of_ok (h : before.remove (file.of path) = .ok after) :
    Removed path file before after := by
  obtain ⟨place, node, hfound, hnode, rfl⟩ := FileTree.remove_ok h
  have hplace := (FileTree.found?_eq_some_iff.mp hfound).1
  obtain ⟨-, honly, hnone⟩ := FileTree.remove_file hfound hnode (place_ne_nil hplace)
  exact ⟨honly.found?_of_node?_none hplace hnone, fun _ => found?_other hplace honly,
    .of_changesOnly honly hplace⟩

/-- A lock file that is there can be removed. -/
theorem removed_of_isFile (hfile : FileTree.IsFile (before.found? (file.of path))) :
    Removed path file before ((before.remove (file.of path)).toOption.getD before) := by
  obtain ⟨place, identity, contents, modified, hfound⟩ := hfile
  have hplace := (FileTree.found?_eq_some_iff.mp hfound).1
  have hremove := (FileTree.remove_file hfound rfl (place_ne_nil hplace)).1
  rw [hremove]
  exact removed_of_ok hremove

theorem beside_remove (tree : FileTree) (path : Path) (file : LockFile) :
    Beside path tree ((tree.remove (file.of path)).toOption.getD tree) := by
  cases hremove : tree.remove (file.of path) with
  | error cause => exact .refl path tree
  | ok after => exact (removed_of_ok hremove).beside

end LockFile

/-! ## From stage to stage -/

namespace LockStage

open LockFile

variable {authority : Authority} {now : Int} {tree : FileTree} {stage : LockStage}

/-- Where a lock file is about to be linked, it is there. -/
def Linkable (authority : Authority) (tree : FileTree) (stage : LockStage) : Prop :=
  ∀ left, stage = .linking left → FileTree.IsFile (tree.found? authority.created)

theorem linkable_of_ne (h : ∀ left, stage ≠ .linking left) : Linkable authority tree stage :=
  fun left heq => absurd heq (h left)

/-- Whether a process has no lock file of its own and is not about to remove one. -/
def bare : LockStage → Bool
  | .checking _ | .judging .. | .creating _ | .asleep _ | .failed _ | .released => true
  | _ => false

theorem bare_retry (authority : Authority) (left : Nat) : (retry authority left).bare = true := by
  cases left <;> rfl

theorem bare_first (authority : Authority) : (first authority).bare = true := by
  unfold first
  split <;> rfl

theorem bare_checked (authority : Authority) (file : LockFile) :
    (checked authority file).bare = true := by
  cases file with
  | created => rfl
  | linked => exact bare_first authority

theorem ne_of_bare {other : LockStage} (h : stage.bare = true) (hother : other.bare = false) :
    stage ≠ other := by
  rintro rfl
  rw [h] at hother
  cases hother

theorem linkable_of_bare (h : stage.bare = true) : Linkable authority tree stage :=
  linkable_of_ne fun _ => ne_of_bare h rfl

/-- One operation changes nothing but lock files. -/
theorem beside_step (now : Int) (h : Linkable authority tree stage) :
    Beside authority.path tree (stage.step authority now tree).1 ∧
      Linkable authority (stage.step authority now tree).1 (stage.step authority now tree).2 := by
  cases stage with
  | checking file =>
    refine ⟨.refl _ tree, linkable_of_bare ?_⟩
    simp only [step]
    split
    · rfl
    · exact bare_checked authority file
  | judging file modified =>
    refine ⟨.refl _ tree, ?_⟩
    simp only [step]
    split
    · exact linkable_of_ne fun _ => LockStage.noConfusion
    · exact linkable_of_bare (bare_checked authority file)
  | breaking file =>
    exact ⟨beside_remove tree authority.path file,
      linkable_of_bare (bare_checked authority file)⟩
  | creating left =>
    simp only [step]
    split
    · rename_i after hcreate
      exact ⟨(made_create hcreate).beside, fun _ _ => (made_create hcreate).isFile⟩
    · exact ⟨.refl _ tree, linkable_of_bare (bare_retry authority left)⟩
    · exact ⟨.refl _ tree, linkable_of_bare rfl⟩
  | linking left =>
    simp only [step]
    split
    · rename_i after hlink
      exact ⟨(made_link (h left rfl) hlink).beside,
        linkable_of_ne fun _ => LockStage.noConfusion⟩
    · exact ⟨.refl _ tree, linkable_of_ne fun _ => LockStage.noConfusion⟩
    · exact ⟨.refl _ tree, linkable_of_ne fun _ => LockStage.noConfusion⟩
  | undoing left error =>
    refine ⟨beside_remove tree authority.path .created, linkable_of_bare ?_⟩
    cases error with
    | none => exact bare_retry authority left
    | some error => rfl
  | releasingCreated =>
    exact ⟨beside_remove tree authority.path .created,
      linkable_of_ne fun _ => LockStage.noConfusion⟩
  | releasingLinked =>
    exact ⟨beside_remove tree authority.path .linked, linkable_of_bare rfl⟩
  | asleep | held | failed | released =>
    exact ⟨.refl _ tree, linkable_of_ne fun _ => LockStage.noConfusion⟩

theorem beside_advance (now : Int) (h : Linkable authority tree stage) :
    Beside authority.path tree (advance authority now tree stage).1 := by
  fun_induction advance authority now tree stage with
  | case1 tree stage _ _ ih =>
    have hstep := beside_step now h
    exact hstep.1.trans (ih hstep.2)
  | case2 tree stage _ => exact .refl _ tree

end LockStage

namespace Authority

open LockFile

variable {authority : Authority}

theorem beside_await (authority : Authority) (now : Int) (left : Nat) (tree : FileTree)
    (stage : LockStage) (waited : Nat) :
    Beside authority.path tree (authority.await now left (tree, stage) waited).1 := by
  induction left generalizing tree stage waited with
  | zero => exact .refl _ tree
  | succ left ih =>
    cases stage with
    | asleep n =>
      rw [await]
      have hadvance : Beside authority.path tree
          (LockStage.advance authority now tree (.creating n)).1 :=
        LockStage.beside_advance now (LockStage.linkable_of_bare rfl)
      exact hadvance.trans (ih _ _ _)
    | _ => exact .refl _ tree

/-- **Taking the lock changes nothing but lock files**, whether it is taken or not. -/
theorem beside_acquire (authority : Authority) (now : Int) (tree : FileTree) :
    Beside authority.path tree (authority.acquire now tree).1 := by
  have hadvance : Beside authority.path tree
      (LockStage.advance authority now tree (.checking .created)).1 :=
    LockStage.beside_advance now (LockStage.linkable_of_bare rfl)
  exact hadvance.trans (beside_await authority now authority.attempts _ _ 0)

/-- **Giving back the lock changes nothing but lock files.** -/
theorem beside_release (authority : Authority) (now : Int) (tree : FileTree) :
    Beside authority.path tree (authority.release now tree) :=
  LockStage.beside_advance now (LockStage.linkable_of_ne fun _ => LockStage.noConfusion)

end Authority

end Xsmp
