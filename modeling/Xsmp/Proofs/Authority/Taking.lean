import Xsmp.Proofs.Authority.Lock

/-!
# What comes of taking the lock

With nobody else acting, it is decided by the lock files that stand beside the authority file
when the first attempt is made. If one of them is not left over, every attempt ends as the first
one does and leaves that file where it is; the lock is waited for between the attempts and given
up after the last. If none is, the first attempt takes the lock at once.
-/

namespace Xsmp

namespace FileTree

variable {tree before after : FileTree} {path other : Path} {place : Place} {now : Int}

/-! ## Where files can be made -/

/-- Whether there is a file where a path leads, or none but all that leads there. -/
structure Available (tree : FileTree) (path : Path) : Prop where
  plain : path.endsWithSlash = false
  located : ∃ place, tree.locate path = .ok place
  file : tree.found? path = none ∨ IsFile (tree.found? path)

theorem locateNew_of_plain (hplain : path.endsWithSlash = false)
    (hplace : tree.locate path = .ok place) : tree.locateNew path = .ok place := by
  unfold locateNew
  cases hpath : checkPath path with
  | error cause =>
    rw [locate, hpath] at hplace
    cases hplace
  | ok checked => simp [Bind.bind, Except.bind, hplain, hplace]

theorem node?_of_found?_eq_none (hplace : tree.locate path = .ok place)
    (habsent : tree.found? path = none) : tree.node? place = none := by
  rw [Option.eq_none_iff_forall_ne_some]
  intro node hnode
  rw [found?_eq_some_iff.mpr ⟨hplace, hnode⟩] at habsent
  cases habsent

theorem node?_of_found?_eq_some {found : Place × Node} (hplace : tree.locate path = .ok place)
    (hfound : tree.found? path = some found) : tree.node? place = some found.2 := by
  obtain ⟨hplace', hnode⟩ := found?_eq_some_iff.mp hfound
  rw [hplace, Except.ok.injEq] at hplace'
  exact hplace' ▸ hnode

theorem create_of_absent (h : tree.Available path) (habsent : tree.found? path = none)
    (now : Int) : ∃ after, tree.create path now = .ok after := by
  obtain ⟨place, hplace⟩ := h.located
  simp [create, locateNew_of_plain h.plain hplace, node?_of_found?_eq_none hplace habsent,
    Bind.bind, Except.bind, pure, Except.pure]

theorem create_of_isFile (h : tree.Available path) (hfile : IsFile (tree.found? path))
    (now : Int) : tree.create path now = .error .alreadyExists := by
  obtain ⟨place, hplace⟩ := h.located
  obtain ⟨there, identity, contents, modified, hfound⟩ := hfile
  simp [create, locateNew_of_plain h.plain hplace, node?_of_found?_eq_some hplace hfound,
    Bind.bind, Except.bind, throw, throwThe, MonadExceptOf.throw]

theorem link_of_absent (hsource : IsFile (tree.found? path)) (h : tree.Available other)
    (habsent : tree.found? other = none) : ∃ after, tree.link path other = .ok after := by
  obtain ⟨place, hplace⟩ := h.located
  obtain ⟨there, identity, contents, modified, hfound⟩ := hsource
  simp [link, find_eq_ok_iff.mpr hfound, hplace, node?_of_found?_eq_none hplace habsent,
    Bind.bind, Except.bind, pure, Except.pure]

theorem link_of_isFile (hsource : IsFile (tree.found? path)) (h : tree.Available other)
    (hfile : IsFile (tree.found? other)) : tree.link path other = .error .alreadyExists := by
  obtain ⟨place, hplace⟩ := h.located
  obtain ⟨there, identity, contents, modified, hfound⟩ := hsource
  obtain ⟨there', identity', contents', modified', hfound'⟩ := hfile
  simp [link, find_eq_ok_iff.mpr hfound, hplace, node?_of_found?_eq_some hplace hfound',
    Bind.bind, Except.bind, throw, throwThe, MonadExceptOf.throw]

theorem write_of_available (h : tree.Available path) (contents : Bytes) (now : Int) :
    ∃ after, tree.write path contents now = .ok after := by
  obtain ⟨place, hplace⟩ := h.located
  have hnew := locateNew_of_plain h.plain hplace
  rcases h.file with habsent | ⟨there, identity, old, modified, hfound⟩
  · simp [write, hnew, node?_of_found?_eq_none hplace habsent, Bind.bind, Except.bind, pure,
      Except.pure]
  · simp [write, hnew, node?_of_found?_eq_some hplace hfound, Bind.bind, Except.bind, pure,
      Except.pure]

theorem read_of_absent (h : tree.Available path) (habsent : tree.found? path = none) :
    tree.read path = .error .notFound := by
  obtain ⟨place, hplace⟩ := h.located
  simp [read, find, hplace, node?_of_found?_eq_none hplace habsent, Bind.bind, Except.bind, throw,
    throwThe, MonadExceptOf.throw]

/-- The ways stay open when the directories stay. -/
theorem Available.congr (h : before.Available path) (hsame : SameDirectories before after)
    (hfile : after.found? path = none ∨ IsFile (after.found? path)) : after.Available path :=
  ⟨h.plain, h.located.imp fun _ hplace => hsame.locate_ok hplace, hfile⟩

theorem Available.of_found?_eq (h : before.Available path) (hsame : SameDirectories before after)
    (hfound : after.found? path = before.found? path) : after.Available path :=
  h.congr hsame (hfound ▸ h.file)

/-- Writing a file leaves files where they are. -/
theorem isFile_write {contents : Bytes} (h : tree.write path contents now = .ok after)
    (hfile : IsFile (tree.found? other)) : IsFile (after.found? other) := by
  obtain ⟨there, identity, old, modified, hfound⟩ := hfile
  obtain ⟨hthere, hnode⟩ := found?_eq_some_iff.mp hfound
  unfold write at h
  cases hplace : tree.locateNew path with
  | error cause => rw [hplace] at h; cases h
  | ok place =>
    rw [hplace] at h
    simp only [Bind.bind, Except.bind] at h
    split at h
    · rename_i hnone
      cases h
      have hne : tree.locate other ≠ .ok place := by
        intro hother
        rw [hthere, Except.ok.injEq] at hother
        rw [hother, hnone] at hnode
        cases hnode
      exact ⟨there, identity, old, modified,
        ((putFile_changesOnly hnone contents now).found?_of_ne hne).trans hfound⟩
    · rename_i written old' modified' _
      cases h
      have hsame := overwrite_sameDirectories tree written contents now
      have hafter := node?_overwrite tree written contents now there
      rw [hnode, Option.map_some, rewritten] at hafter
      split at hafter
      · exact ⟨_, _, _, _, found?_eq_some_iff.mpr ⟨hsame.locate_ok hthere, hafter⟩⟩
      · exact ⟨_, _, _, _, found?_eq_some_iff.mpr ⟨hsame.locate_ok hthere, hafter⟩⟩
    · cases h
    · cases h

/-! ## When a file was written -/

theorem modified?_eq_some_iff {modified : Int} :
    tree.modified? path = some modified ↔
      ∃ place identity contents,
        tree.found? path = some (place, .file identity contents modified) := by
  unfold modified? found?
  cases tree.find path with
  | error cause => simp [Except.toOption]
  | ok found =>
    obtain ⟨place, node⟩ := found
    cases node <;> simp [Except.toOption]

theorem modified?_congr (h : after.found? path = before.found? path) :
    after.modified? path = before.modified? path := by
  refine Option.ext fun modified => ?_
  rw [modified?_eq_some_iff, modified?_eq_some_iff, h]

end FileTree

namespace LockFile

variable {tree after : FileTree} {path : Path} {file : LockFile} {now : Int}

/-! ## Lock files that are left over -/

/-- Whether a lock file stands that is not left over. -/
def fresh (path : Path) (tree : FileTree) (now : Int) (file : LockFile) : Bool :=
  (tree.modified? (file.of path)).any fun modified => decide (now - modified < Authority.staleAge)

/-- A directory in which the authority file can be written and its lock files made. -/
structure Writable (path : Path) (tree : FileTree) : Prop where
  whole : tree.Available path
  lock : ∀ file : LockFile, tree.Available (file.of path)

theorem fresh_congr (h : after.found? (file.of path) = tree.found? (file.of path)) (now : Int) :
    file.fresh path after now = file.fresh path tree now := by
  rw [fresh, FileTree.modified?_congr h, fresh]

/-- Only a file that stands is fresh. -/
theorem isFile_of_fresh (h : file.fresh path tree now = true) :
    FileTree.IsFile (tree.found? (file.of path)) := by
  rw [fresh, Option.any_eq_true] at h
  obtain ⟨modified, hmodified, -⟩ := h
  obtain ⟨place, identity, contents, hfound⟩ := FileTree.modified?_eq_some_iff.mp hmodified
  exact ⟨place, identity, contents, modified, hfound⟩

/-- What becomes of a lock file at `path` that is checked, with nobody else acting. -/
def clear (tree : FileTree) (path : Path) (now : Int) : FileTree :=
  match tree.modified? path with
  | some modified =>
    if Authority.staleAge ≤ now - modified then (tree.remove path).toOption.getD tree else tree
  | none => tree

theorem beside_clear (tree : FileTree) (path : Path) (now : Int) (file : LockFile) :
    Beside path tree (clear tree (file.of path) now) := by
  unfold clear
  split
  · split
    · exact beside_remove tree path file
    · exact .refl path tree
  · exact .refl path tree

theorem clear_of_fresh (h : file.fresh path tree now = true) :
    clear tree (file.of path) now = tree := by
  rw [fresh, Option.any_eq_true] at h
  obtain ⟨modified, hmodified, hage⟩ := h
  have hyoung : ¬ Authority.staleAge ≤ now - modified := Int.not_le.mpr (of_decide_eq_true hage)
  simp only [clear, hmodified, if_neg hyoung]

/-- What is not fresh is not there after clearing. -/
theorem found?_clear_of_not_fresh (hfile : tree.Available (file.of path))
    (h : file.fresh path tree now = false) :
    (clear tree (file.of path) now).found? (file.of path) = none := by
  rcases hfile.file with habsent | hstands
  · have hmodified : tree.modified? (file.of path) = none := by
      rw [Option.eq_none_iff_forall_ne_some]
      intro modified hmodified
      obtain ⟨_, _, _, hfound⟩ := FileTree.modified?_eq_some_iff.mp hmodified
      rw [habsent] at hfound
      cases hfound
    simp only [clear, hmodified, habsent]
  · obtain ⟨place, identity, contents, modified, hfound⟩ := hstands
    have hmodified : tree.modified? (file.of path) = some modified :=
      FileTree.modified?_eq_some_iff.mpr ⟨place, identity, contents, hfound⟩
    have hold : Authority.staleAge ≤ now - modified := by
      simpa [fresh, hmodified] using h
    simp only [clear, hmodified, if_pos hold]
    exact (removed_of_isFile ⟨place, identity, contents, modified, hfound⟩).absent

theorem found?_clear (hfile : tree.Available (file.of path)) (now : Int) :
    (clear tree (file.of path) now).found? (file.of path) =
      if file.fresh path tree now then tree.found? (file.of path) else none := by
  split
  · rename_i hfresh
    rw [clear_of_fresh hfresh]
  · rename_i hstale
    exact found?_clear_of_not_fresh hfile (Bool.eq_false_iff.mpr hstale)

theorem found?_clear_other {other : LockFile} (hne : other ≠ file) (tree : FileTree) (path : Path)
    (now : Int) :
    (clear tree (file.of path) now).found? (other.of path) =
      tree.found? (other.of path) := by
  unfold clear
  split
  · split
    · cases hremove : tree.remove (file.of path) with
      | error cause => rfl
      | ok after => exact (removed_of_ok hremove).other other hne
    · rfl
  · rfl

end LockFile

namespace LockStage

open LockFile

variable {authority : Authority} {now : Int} {tree : FileTree} {stage : LockStage}

/-! ## One attempt -/

theorem advance_of_busy (h : stage.busy = true) :
    advance authority now tree stage =
      advance authority now (stage.step authority now tree).1
        (stage.step authority now tree).2 := by
  rw [advance, dif_pos h]

theorem advance_of_rest (h : stage.busy = false) :
    advance authority now tree stage = (tree, stage) := by
  rw [advance, dif_neg (Bool.eq_false_iff.mp h)]

/-- A lock file is looked at, the clock is read and what is left over removed, all at once. -/
theorem advance_checking (authority : Authority) (now : Int) (tree : FileTree) (file : LockFile) :
    advance authority now tree (.checking file) =
      advance authority now (clear tree (file.of authority.path) now) (checked authority file) := by
  rw [advance_of_busy rfl, step, clear]
  cases hmodified : tree.modified? (file.of authority.path) with
  | none => rfl
  | some modified =>
    simp only
    rw [advance_of_busy rfl, step]
    split
    · rw [advance_of_busy rfl, step]
    · rfl

theorem busy_retry (authority : Authority) (left : Nat) : (retry authority left).busy = false := by
  cases left <;> rfl

/-- An attempt that finds a lock file leaves both as they were. -/
theorem advance_creating_of_isFile
    (hlock : ∀ file : LockFile, tree.Available (file.of authority.path))
    {blocking : LockFile} (hblock : FileTree.IsFile (tree.found? (blocking.of authority.path)))
    (now : Int) (left : Nat) :
    ∃ after, advance authority now tree (.creating left) = (after, retry authority left) ∧
      FileTree.SameDirectories tree after ∧
      ∀ file : LockFile, after.found? (file.of authority.path) =
        tree.found? (file.of authority.path) := by
  rw [advance_of_busy rfl, step]
  rcases (hlock .created).file with habsent | hcreated
  · -- the file can be created, but not linked, and is removed again
    have hlinked : FileTree.IsFile (tree.found? (LockFile.linked.of authority.path)) := by
      cases blocking with
      | linked => exact hblock
      | created =>
        obtain ⟨_, _, _, _, hfound⟩ := hblock
        rw [habsent] at hfound
        cases hfound
    obtain ⟨made, hcreate⟩ : ∃ made, tree.create authority.created now = .ok made :=
      FileTree.create_of_absent (hlock .created) habsent now
    have hmade : Made authority.path .created tree made := made_create hcreate
    have hsame := hmade.other .linked (by decide)
    have havailable : made.Available (LockFile.linked.of authority.path) :=
      (hlock .linked).of_found?_eq hmade.beside.same hsame
    have hlink : made.link authority.created authority.linked = .error .alreadyExists :=
      FileTree.link_of_isFile hmade.isFile havailable (hsame ▸ hlinked)
    have hremoved := removed_of_isFile hmade.isFile
    rw [hcreate, advance_of_busy rfl, step, hlink, advance_of_busy rfl, step,
      advance_of_rest (busy_retry authority left)]
    refine ⟨_, rfl, hmade.beside.same.trans hremoved.beside.same, fun file => ?_⟩
    cases file with
    | created => exact hremoved.absent.trans habsent.symm
    | linked => exact (hremoved.other .linked (by decide)).trans hsame
  · have hcreate : tree.create authority.created now = .error .alreadyExists :=
      FileTree.create_of_isFile (hlock .created) hcreated now
    rw [hcreate, advance_of_rest (busy_retry authority left)]
    exact ⟨tree, rfl, .refl tree, fun _ => rfl⟩

/-- An attempt that finds no lock file takes the lock. -/
theorem advance_creating_of_absent
    (hlock : ∀ file : LockFile, tree.Available (file.of authority.path))
    (habsent : ∀ file : LockFile, tree.found? (file.of authority.path) = none) (left : Nat) :
    ∃ after, advance authority now tree (.creating left) = (after, .held) ∧
      ∀ file : LockFile, FileTree.IsFile (after.found? (file.of authority.path)) := by
  obtain ⟨made, hcreate⟩ : ∃ made, tree.create authority.created now = .ok made :=
    FileTree.create_of_absent (hlock .created) (habsent .created) now
  have hmade : Made authority.path .created tree made := made_create hcreate
  have hlinked : made.found? (LockFile.linked.of authority.path) = none :=
    (hmade.other .linked (by decide)).trans (habsent .linked)
  have havailable : made.Available (LockFile.linked.of authority.path) :=
    (hlock .linked).congr hmade.beside.same (.inl hlinked)
  obtain ⟨after, hlink⟩ : ∃ after, made.link authority.created authority.linked = .ok after :=
    FileTree.link_of_absent hmade.isFile havailable hlinked
  have hboth : Made authority.path .linked made after := made_link hmade.isFile hlink
  rw [advance_of_busy rfl, step, hcreate, advance_of_busy rfl, step, hlink, advance_of_rest rfl]
  refine ⟨after, rfl, fun file => ?_⟩
  cases file with
  | created => exact hboth.other .created (by decide) ▸ hmade.isFile
  | linked => exact hboth.isFile

end LockStage

namespace Authority

open LockFile

variable {authority : Authority} {now : Int} {tree : FileTree}

/-! ## All attempts -/

/-- With a lock file in the way every attempt that is left is waited for, and the last one is
followed by none. -/
theorem await_retry_of_isFile
    (hlock : ∀ file : LockFile, tree.Available (file.of authority.path)) {blocking : LockFile}
    (hblock : FileTree.IsFile (tree.found? (blocking.of authority.path))) {left turns : Nat}
    (hturns : left < turns) (waited : Nat) :
    ∃ after, authority.await now turns (tree, LockStage.retry authority left) waited =
        (after, .failed (.locked authority.path), waited + left * authority.interval) ∧
      ∀ file : LockFile, after.found? (file.of authority.path) =
        tree.found? (file.of authority.path) := by
  induction left generalizing turns tree waited with
  | zero =>
    refine ⟨tree, ?_, fun _ => rfl⟩
    cases turns <;> simp [await, LockStage.retry]
  | succ left ih =>
    obtain ⟨turns, rfl⟩ : ∃ turns', turns = turns' + 1 :=
      ⟨turns - 1, (Nat.sub_add_cancel (Nat.one_le_of_lt hturns)).symm⟩
    obtain ⟨middle, hadvance, hsame, hfound⟩ :=
      LockStage.advance_creating_of_isFile hlock hblock now left
    have hlock' : ∀ file : LockFile, middle.Available (file.of authority.path) :=
      fun file => (hlock file).of_found?_eq hsame (hfound file)
    obtain ⟨after, hawait, hafter⟩ :=
      ih hlock' (hfound blocking ▸ hblock) (Nat.lt_of_succ_lt_succ hturns)
        (waited + authority.interval)
    refine ⟨after, ?_, fun file => (hafter file).trans (hfound file)⟩
    rw [LockStage.retry, await, hadvance, hawait, Nat.succ_mul]
    congr 2
    omega

/-- What stands when the first attempt is made. -/
def cleared (authority : Authority) (now : Int) (tree : FileTree) : FileTree :=
  clear (clear tree authority.created now) authority.linked now

theorem beside_cleared (authority : Authority) (now : Int) (tree : FileTree) :
    Beside authority.path tree (authority.cleared now tree) :=
  (beside_clear tree authority.path now .created).trans
    (beside_clear _ authority.path now .linked)

/-- Lock files that are left over are gone by the first attempt, and others are not. -/
theorem found?_cleared (h : Writable authority.path tree) (now : Int) (file : LockFile) :
    (authority.cleared now tree).found? (file.of authority.path) =
      if file.fresh authority.path tree now then tree.found? (file.of authority.path)
      else none := by
  have hne : LockFile.linked ≠ .created := by decide
  have hother : (clear tree authority.created now).found? (LockFile.linked.of authority.path) =
      tree.found? (LockFile.linked.of authority.path) :=
    found?_clear_other hne tree authority.path now
  cases file with
  | created =>
    have hsame := found?_clear_other hne.symm (clear tree authority.created now) authority.path now
    exact hsame.trans (found?_clear (h.lock .created) now)
  | linked =>
    have hlinked : (clear tree authority.created now).Available
        (LockFile.linked.of authority.path) :=
      (h.lock .linked).of_found?_eq (beside_clear tree authority.path now .created).same hother
    have hclear := found?_clear hlinked now
    rw [fresh_congr hother, hother] at hclear
    exact hclear

theorem available_cleared (h : Writable authority.path tree) (now : Int) (file : LockFile) :
    (authority.cleared now tree).Available (file.of authority.path) := by
  refine (h.lock file).congr (beside_cleared authority now tree).same ?_
  rw [found?_cleared h]
  split
  · exact (h.lock file).file
  · exact .inl rfl

theorem advance_checking_created (authority : Authority) (now : Int) (tree : FileTree) :
    LockStage.advance authority now tree (.checking .created) =
      LockStage.advance authority now (authority.cleared now tree) (.first authority) := by
  rw [LockStage.advance_checking, LockStage.checked, LockStage.advance_checking,
    LockStage.checked, cleared]
  rfl

/-! ## Taking the lock and giving it back -/

/-- Whether the lock is tried at all, and every lock file that stands is left over. -/
structure Obtainable (authority : Authority) (tree : FileTree) (now : Int) : Prop where
  tried : 1 ≤ authority.attempts
  free : ∀ file : LockFile, file.fresh authority.path tree now = false

theorem exists_fresh (h : ¬ authority.Obtainable tree now) (htried : 1 ≤ authority.attempts) :
    ∃ file : LockFile, file.fresh authority.path tree now = true :=
  Classical.byContradiction fun hnone =>
    h ⟨htried, fun file => Bool.eq_false_iff.mpr fun hfresh => hnone ⟨file, hfresh⟩⟩

/-- **A lock that is not to be had is not taken.** A lock file that is not left over stays, and
no other is there afterwards. -/
theorem acquire_of_not_obtainable (h : Writable authority.path tree)
    (hlocked : ¬ authority.Obtainable tree now) :
    ∃ after, authority.acquire now tree =
        (after, .error (.locked authority.path), (authority.attempts - 1) * authority.interval) ∧
      ∀ file : LockFile, after.found? (file.of authority.path) =
        if file.fresh authority.path tree now then tree.found? (file.of authority.path)
        else none := by
  cases hattempts : authority.attempts with
  | zero =>
    have hfirst : LockStage.first authority = .failed (.locked authority.path) := by
      rw [LockStage.first, hattempts]
    refine ⟨authority.cleared now tree, ?_, found?_cleared h now⟩
    rw [acquire, advance_checking_created, hfirst, LockStage.advance_of_rest rfl, hattempts,
      Nat.zero_sub, Nat.zero_mul]
    rfl
  | succ left =>
    obtain ⟨blocking, hfresh⟩ := exists_fresh hlocked (hattempts ▸ Nat.succ_pos left)
    have hfirst : LockStage.first authority = .creating left := by
      rw [LockStage.first, hattempts]
    have hblock : FileTree.IsFile
        ((authority.cleared now tree).found? (blocking.of authority.path)) := by
      rw [found?_cleared h, if_pos hfresh]
      exact isFile_of_fresh hfresh
    obtain ⟨middle, hadvance, hsame, hmiddle⟩ :=
      LockStage.advance_creating_of_isFile (available_cleared h now) hblock now left
    have hlock : ∀ file : LockFile, middle.Available (file.of authority.path) :=
      fun file => (available_cleared h now file).of_found?_eq hsame (hmiddle file)
    obtain ⟨after, hawait, hafter⟩ :=
      await_retry_of_isFile hlock (hmiddle blocking ▸ hblock) (Nat.lt_succ_self left) 0
    refine ⟨after, ?_, fun file => ?_⟩
    · rw [acquire, advance_checking_created, hfirst, hadvance, hattempts, hawait, Nat.zero_add,
        Nat.add_sub_cancel]
    · rw [hafter, hmiddle, found?_cleared h]

/-- **A lock that is to be had is taken at once.** -/
theorem acquire_of_obtainable (h : Writable authority.path tree)
    (hfree : authority.Obtainable tree now) :
    ∃ after, authority.acquire now tree = (after, .ok (), 0) ∧
      ∀ file : LockFile, FileTree.IsFile (after.found? (file.of authority.path)) := by
  obtain ⟨left, hleft⟩ := Nat.exists_eq_succ_of_ne_zero (Nat.one_le_iff_ne_zero.mp hfree.tried)
  have hfirst : LockStage.first authority = .creating left := by
    rw [LockStage.first, hleft]
  have habsent : ∀ file : LockFile,
      (authority.cleared now tree).found? (file.of authority.path) = none := by
    intro file
    rw [found?_cleared h, hfree.free, if_neg Bool.false_ne_true]
  obtain ⟨after, hadvance, hafter⟩ :=
    LockStage.advance_creating_of_absent (available_cleared h now) habsent left
  refine ⟨after, ?_, hafter⟩
  rw [acquire, advance_checking_created, hfirst, hadvance, hleft]
  rfl

/-- A lock that is held is given back. -/
theorem found?_release (now : Int)
    (h : ∀ file : LockFile, FileTree.IsFile (tree.found? (file.of authority.path)))
    (file : LockFile) : (authority.release now tree).found? (file.of authority.path) = none := by
  have hcreated := removed_of_isFile (h .created)
  have hlinked : FileTree.IsFile (((tree.remove authority.created).toOption.getD tree).found?
      (LockFile.linked.of authority.path)) :=
    hcreated.other .linked (by decide) ▸ h .linked
  have hboth := removed_of_isFile hlinked
  rw [release, LockStage.advance_of_busy rfl, LockStage.step, LockStage.advance_of_busy rfl,
    LockStage.step, LockStage.advance_of_rest rfl]
  cases file with
  | created => exact (hboth.other .created (by decide)).trans hcreated.absent
  | linked => exact hboth.absent

end Authority

end Xsmp
