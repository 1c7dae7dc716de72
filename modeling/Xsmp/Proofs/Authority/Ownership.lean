import Xsmp.Proofs.Authority.Lock
import Mathlib.Logic.Function.Basic

/-!
# Whose the lock files are

Each lock file has an owner: it stands exactly while one process has come to a stage between
making the file and removing it. A file is only made where none stands, so a second owner never
comes, and a stage that removes a file owns it.

All of this holds up to one stage, which removes a file that it does not own: the one that
breaks a lock. With nothing there to break, what a process does keeps both lock files owned.
-/

namespace Xsmp

/-! ## Owning a lock file -/

namespace LockStage

/-- The stages between making a lock file and removing it. -/
def owns : LockStage → LockFile → Bool
  | .linking _, .created | .undoing .., .created => true
  | .held, _ | .releasingCreated, _ => true
  | .releasingLinked, .linked => true
  | _, _ => false

/-- Whether a process is neither taking the lock nor holding it nor giving it back. -/
def idle : LockStage → Bool
  | .failed _ | .released => true
  | _ => false

/-- What an operation of one process does to a lock file: nothing, or it makes the file and
owns it from then on, or it owns the file and removes it. -/
inductive Turn (before after : Option (Place × Node)) : Bool → Bool → Prop
  | stays {owned : Bool} (same : after = before) : Turn before after owned owned
  | makes (absent : before = none) (file : FileTree.IsFile after) : Turn before after false true
  | removes (absent : after = none) : Turn before after true false

variable {authority : Authority} {path : Path} {tree after : FileTree} {now : Int}
  {file other : LockFile} {stage : LockStage}

theorem owns_of_bare (h : stage.bare = true) : stage.owns file = false := by
  cases stage <;> first | rfl | cases h

theorem owns_of_idle (h : stage.idle = true) : stage.owns file = false := by
  cases stage <;> first | rfl | cases h

/-- A process that takes its file back owns nothing afterwards. -/
theorem owns_step_undoing {left : Nat} {error : Option AuthorityError} :
    ((undoing left error).step authority now tree).2.owns file = false := by
  cases error with
  | none => exact owns_of_bare (bare_retry authority left)
  | some error => rfl

/-- An operation on one lock file that leaves the other one alone. -/
theorem turn_of_other (stage next : LockStage)
    (hturn : Turn (tree.found? (file.of path)) (after.found? (file.of path)) (stage.owns file)
      (next.owns file))
    (hfound : ∀ other ≠ file, after.found? (other.of path) = tree.found? (other.of path))
    (howns : ∀ other ≠ file, next.owns other = stage.owns other) (other : LockFile) :
    Turn (tree.found? (other.of path)) (after.found? (other.of path)) (stage.owns other)
      (next.owns other) := by
  by_cases heq : other = file
  · subst heq
    exact hturn
  · rw [howns other heq]
    exact .stays (hfound other heq)

/-- **One operation.** A process that finds the lock files it owns, and none to break, does
nothing to the others. -/
theorem turn_step (now : Int)
    (hfile : ∀ file, stage.owns file = true →
      FileTree.IsFile (tree.found? (file.of authority.path)))
    (hbreak : ∀ file, stage = .breaking file → tree.found? (file.of authority.path) = none)
    (file : LockFile) :
    Turn (tree.found? (file.of authority.path))
      ((stage.step authority now tree).1.found? (file.of authority.path))
      (stage.owns file) ((stage.step authority now tree).2.owns file) := by
  cases stage with
  | checking looked =>
    simp only [step]
    split
    · exact .stays rfl
    · rw [owns_of_bare (bare_checked authority looked)]
      exact .stays rfl
  | judging looked modified =>
    simp only [step]
    split
    · exact .stays rfl
    · rw [owns_of_bare (bare_checked authority looked)]
      exact .stays rfl
  | breaking looked =>
    simp only [step, FileTree.remove_of_absent (hbreak looked rfl)]
    rw [owns_of_bare (bare_checked authority looked)]
    exact .stays rfl
  | creating left =>
    simp only [step]
    split
    · rename_i after hcreate
      have hmade := LockFile.made_create hcreate
      exact turn_of_other (.creating left) (.linking left) (.makes hmade.absent hmade.isFile)
        hmade.other (LockFile.forall_ne_created rfl) file
    · rw [owns_of_bare (bare_retry authority left)]
      exact .stays rfl
    · exact .stays rfl
  | linking left =>
    simp only [step]
    split
    · rename_i after hlink
      have hmade := LockFile.made_link (hfile .created rfl) hlink
      exact turn_of_other (.linking left) .held (.makes hmade.absent hmade.isFile)
        hmade.other (LockFile.forall_ne_linked rfl) file
    · cases file <;> exact .stays rfl
    · cases file <;> exact .stays rfl
  | undoing left error =>
    have hremoved := LockFile.removed_of_isFile (hfile .created rfl)
    refine turn_of_other (.undoing left error) _ ?_ hremoved.other
      (LockFile.forall_ne_created owns_step_undoing) file
    rw [owns_step_undoing]
    exact .removes hremoved.absent
  | releasingCreated =>
    have hremoved := LockFile.removed_of_isFile (hfile .created rfl)
    exact turn_of_other .releasingCreated .releasingLinked (.removes hremoved.absent)
      hremoved.other (LockFile.forall_ne_created rfl) file
  | releasingLinked =>
    have hremoved := LockFile.removed_of_isFile (hfile .linked rfl)
    exact turn_of_other .releasingLinked .released (.removes hremoved.absent)
      hremoved.other (LockFile.forall_ne_linked rfl) file
  | asleep | held | failed | released => exact .stays rfl

end LockStage

/-! ## Many processes and one lock -/

/-- Processes that take and give back the lock of one authority file, with their common file
system. For each lock file that stands, `maker` is the process in whose turn it appeared. -/
structure Contest (ι : Type) where
  tree : FileTree
  stage : ι → LockStage
  maker : LockFile → Option ι

namespace Contest

variable {ι : Type} {path : Path} {contest : Contest ι} {file : LockFile}

/-- What the lock file at `path` is. -/
def lock? (contest : Contest ι) (path : Path) (file : LockFile) : Option (Place × Node) :=
  contest.tree.found? (file.of path)

section Turns

variable [DecidableEq ι]

/-- The contest after process `i` has come to another stage with its operation on the tree.
A lock file that was not there before is of its making. -/
def turn (contest : Contest ι) (path : Path) (i : ι) (result : FileTree × LockStage) :
    Contest ι where
  tree := result.1
  stage := Function.update contest.stage i result.2
  maker file :=
    match contest.lock? path file, result.1.found? (file.of path) with
    | _, none => none
    | none, some _ => some i
    | some _, some _ => contest.maker file

/-- Only the process whose turn it is comes to own something else. -/
theorem owns_turn (contest : Contest ι) (path : Path) (i j : ι) (result : FileTree × LockStage)
    (file : LockFile) :
    ((contest.turn path i result).stage j).owns file =
      if j = i then result.2.owns file else (contest.stage j).owns file := by
  by_cases hj : j = i
  · subst hj
    simp [turn]
  · simp [turn, hj]

end Turns

/-- A lock file stands while the process that made it owns it, and no longer. -/
structure Owned (contest : Contest ι) (path : Path) (file : LockFile) : Prop where
  owner : ∀ i, contest.maker file = some i ↔ (contest.stage i).owns file = true
  isFile : ∀ i, contest.maker file = some i → FileTree.IsFile (contest.lock? path file)
  absent : contest.maker file = none → contest.lock? path file = none

namespace Owned

theorem isFile_of_owns (h : Owned contest path file) {i : ι}
    (howns : (contest.stage i).owns file = true) : FileTree.IsFile (contest.lock? path file) :=
  h.isFile i ((h.owner i).mpr howns)

/-- Nobody owns a file that is not there. -/
theorem maker_eq_none (h : Owned contest path file) (habsent : contest.lock? path file = none) :
    contest.maker file = none := by
  cases hmaker : contest.maker file with
  | none => rfl
  | some i =>
    obtain ⟨place, identity, contents, modified, hsome⟩ := h.isFile i hmaker
    rw [habsent] at hsome
    cases hsome

/-- Two owners are one. -/
theorem unique (h : Owned contest path file) {i j : ι}
    (hi : (contest.stage i).owns file = true) (hj : (contest.stage j).owns file = true) :
    i = j := by
  have hmaker := (h.owner i).mpr hi
  rw [(h.owner j).mpr hj, Option.some.injEq] at hmaker
  exact hmaker.symm

variable [DecidableEq ι]

/-- The turn of a process keeps a lock file owned. -/
theorem turn (h : Owned contest path file) {i : ι} {result : FileTree × LockStage}
    (hturn : LockStage.Turn (contest.lock? path file) (result.1.found? (file.of path))
      ((contest.stage i).owns file) (result.2.owns file)) :
    Owned (contest.turn path i result) path file := by
  generalize howned : (contest.stage i).owns file = owned at hturn
  generalize hnext : result.2.owns file = owns at hturn
  have hlock : (contest.turn path i result).lock? path file = result.1.found? (file.of path) :=
    rfl
  cases hturn with
  | stays same =>
    have hmaker : (contest.turn path i result).maker file = contest.maker file := by
      simp only [Contest.turn, same]
      cases hbefore : contest.lock? path file with
      | none => exact (h.maker_eq_none hbefore).symm
      | some found => rfl
    refine ⟨fun j => ?_, fun j hj => ?_, fun hnone => ?_⟩
    · rw [hmaker, h.owner j, owns_turn, hnext]
      split
      · rename_i hj
        rw [hj, howned]
      · rfl
    · rw [hlock, same]
      exact h.isFile j (hmaker ▸ hj)
    · rw [hlock, same]
      exact h.absent (hmaker ▸ hnone)
  | makes absent isFile =>
    have hmaker : (contest.turn path i result).maker file = some i := by
      obtain ⟨place, identity, contents, modified, hsome⟩ := isFile
      simp only [Contest.turn, absent, hsome]
    refine ⟨fun j => ?_, fun j _ => hlock ▸ isFile, fun hnone => ?_⟩
    · rw [hmaker, Option.some.injEq, owns_turn, hnext]
      split
      · rename_i hj
        exact iff_of_true hj.symm rfl
      · -- nobody else owns a file that was not there
        rename_i hj
        refine iff_of_false (Ne.symm hj) fun howns => ?_
        have hnone := (h.owner j).mpr howns
        rw [h.maker_eq_none absent] at hnone
        cases hnone
    · rw [hmaker] at hnone
      cases hnone
  | removes absent =>
    have hmaker : (contest.turn path i result).maker file = none := by
      simp only [Contest.turn, absent]
    refine ⟨fun j => ?_, fun j hj => ?_, fun _ => hlock ▸ absent⟩
    · rw [hmaker, owns_turn, hnext]
      refine iff_of_false (by simp) ?_
      split
      · exact Bool.false_ne_true
      · rename_i hj
        exact fun howns => hj (h.unique howns howned)
    · rw [hmaker] at hj
      cases hj

end Owned

end Contest

end Xsmp
