import Xsmp.Data.Time
import Xsmp.Host.FileTree

/-!
# The lock of an authority file

Sessions and other programs take turns in changing an authority file. Whoever
wants to change it creates one file beside it, which only one of them can, and
links it to a second name; both files stand until the change is made. A turn
that is taken is waited for, a fixed number of times. Lock files that are ten
minutes old are left over and are removed before the first attempt.

Taking the lock is a sequence of single file operations, and others may act
between any two of them.
-/

namespace Xsmp

/-- Why an authority file could not be read or changed. -/
inductive AuthorityError where
  | file (path : Path) (cause : HostError)
  /-- Someone else holds the lock. -/
  | locked (path : Path)
  /-- The last entry is cut short. -/
  | truncated (path : Path)
  /-- It is not known where the file is. -/
  | noLocation
  deriving DecidableEq

namespace AuthorityError

def message : AuthorityError → String
  | .file path cause => path.text ++ ": " ++ cause.message
  | .locked path => "timed out waiting for the lock on " ++ path.text
  | .truncated path => path.text ++ ": truncated entry"
  | .noLocation => "no ICE authority file location (set ICEAUTHORITY or HOME)"

/-- The host's answer behind an error. -/
def cause? : AuthorityError → Option HostError
  | .file _ cause => some cause
  | _ => none

end AuthorityError

/-- The files that stand while a lock is held. -/
inductive LockFile where
  | created
  | linked
  deriving DecidableEq

namespace LockFile

/-- By what the name of a lock file is longer than that of the authority file. -/
def ending : LockFile → String
  | .created => "-c"
  | .linked => "-l"

/-- The lock file of the authority file at `path`. -/
def of (file : LockFile) (path : Path) : Path := path.extend file.ending

end LockFile

/-- An authority file and how its lock is taken. -/
structure Authority where
  path : Path
  /-- How often the lock is tried. -/
  attempts : Nat := 10
  /-- How long to wait between two attempts, in milliseconds. -/
  interval : Nat := 2000

namespace Authority

/-- The lock file that is created. -/
def created (authority : Authority) : Path := LockFile.created.of authority.path

/-- The lock file that is linked to it. -/
def linked (authority : Authority) : Path := LockFile.linked.of authority.path

/-- The age from which on a lock file is left over, in nanoseconds. -/
def staleAge : Int := 600 * nanosPerSecond

end Authority

/-- How far taking and giving back a lock has come. Each stage but the last ones stands
before one file operation, one look at the clock or one wait; `left` counts the attempts
after the one at hand. -/
inductive LockStage where
  /-- Before looking when a lock file was written. -/
  | checking (file : LockFile)
  /-- Before looking at the clock. What stood at the lock file's path was written at
  `modified`. -/
  | judging (file : LockFile) (modified : Int)
  /-- Before removing what stands at the lock file's path. -/
  | breaking (file : LockFile)
  | creating (left : Nat)
  | linking (left : Nat)
  /-- The link could not be made; the created file is taken back. -/
  | undoing (left : Nat) (error : Option AuthorityError)
  /-- Waiting for the next attempt. -/
  | asleep (left : Nat)
  | held
  | failed (error : AuthorityError)
  | releasingCreated
  | releasingLinked
  | released
  deriving DecidableEq

namespace LockStage

/-- The stage after an attempt that found the lock taken. -/
def retry (authority : Authority) : Nat → LockStage
  | 0 => .failed (.locked authority.path)
  | left + 1 => .asleep left

/-- The stage before the first attempt. -/
def first (authority : Authority) : LockStage :=
  match authority.attempts with
  | 0 => .failed (.locked authority.path)
  | left + 1 => .creating left

/-- The stage after it is settled whether a lock file is left over. -/
def checked (authority : Authority) : LockFile → LockStage
  | .created => .checking .linked
  | .linked => first authority

/-- Do what a stage stands before. -/
def step (authority : Authority) (now : Int) (tree : FileTree) : LockStage → FileTree × LockStage
  | .checking file =>
    (tree, match tree.modified? (file.of authority.path) with
      | some modified => .judging file modified
      | none => checked authority file)
  | .judging file modified =>
    (tree, if Authority.staleAge ≤ now - modified then .breaking file else checked authority file)
  | .breaking file =>
    ((tree.remove (file.of authority.path)).toOption.getD tree, checked authority file)
  | .creating left =>
    match tree.create authority.created now with
    | .ok tree => (tree, .linking left)
    | .error .alreadyExists => (tree, retry authority left)
    | .error cause => (tree, .failed (.file authority.created cause))
  | .linking left =>
    match tree.link authority.created authority.linked with
    | .ok tree => (tree, .held)
    | .error .alreadyExists => (tree, .undoing left none)
    | .error cause => (tree, .undoing left (some (.file authority.linked cause)))
  | .undoing left error =>
    ((tree.remove authority.created).toOption.getD tree,
      match error with
      | none => retry authority left
      | some error => .failed error)
  | .asleep left => (tree, .creating left)
  | .releasingCreated => ((tree.remove authority.created).toOption.getD tree, .releasingLinked)
  | .releasingLinked => ((tree.remove authority.linked).toOption.getD tree, .released)
  | stage => (tree, stage)

/-- Whether a stage goes on by itself. -/
def busy : LockStage → Bool
  | .asleep _ | .held | .failed _ | .released => false
  | _ => true

/-- A bound on what is still to come after a lock file has been checked. -/
def boundChecked : LockFile → Nat
  | .created => 6
  | .linked => 3

/-- A bound on what is still to come before a stage rests. -/
def bound : LockStage → Nat
  | .checking file => boundChecked file + 3
  | .judging file _ => boundChecked file + 2
  | .breaking file => boundChecked file + 1
  | .creating _ => 3
  | .linking _ => 2
  | .undoing .. => 1
  | .releasingCreated => 2
  | .releasingLinked => 1
  | _ => 0

theorem bound_retry (authority : Authority) (left : Nat) : (retry authority left).bound = 0 := by
  cases left <;> rfl

theorem bound_first (authority : Authority) : (first authority).bound ≤ 3 := by
  unfold first
  split <;> simp [bound]

theorem bound_checked (authority : Authority) (file : LockFile) :
    (checked authority file).bound ≤ boundChecked file := by
  cases file with
  | created => exact Nat.le_refl _
  | linked => exact bound_first authority

theorem bound_step {stage : LockStage} (h : stage.busy = true) (authority : Authority) (now : Int)
    (tree : FileTree) : (stage.step authority now tree).2.bound < stage.bound := by
  cases stage with
  | checking file =>
    simp only [step]
    split
    · exact Nat.lt_succ_self _
    · exact Nat.lt_of_le_of_lt (bound_checked authority file) (Nat.lt_add_of_pos_right (by decide))
  | judging file modified =>
    simp only [step]
    split
    · exact Nat.lt_succ_self _
    · exact Nat.lt_of_le_of_lt (bound_checked authority file) (Nat.lt_add_of_pos_right (by decide))
  | breaking file => exact Nat.lt_succ_of_le (bound_checked authority file)
  | creating left =>
    simp only [step]
    split
    · exact Nat.lt_succ_self _
    · simp only [bound_retry]; exact Nat.succ_pos _
    · exact Nat.succ_pos _
  | linking left =>
    simp only [step]
    split <;> simp [bound]
  | undoing left error =>
    cases error with
    | none => simp only [step, bound_retry]; exact Nat.succ_pos _
    | some error => exact Nat.succ_pos _
  | releasingCreated => simp [step, bound]
  | releasingLinked => simp [step, bound]
  | _ => exact absurd h (by simp [busy])

/-- Go on until the lock is held, given up or given back, or the next attempt has to be
waited for. -/
def advance (authority : Authority) (now : Int) (tree : FileTree) (stage : LockStage) :
    FileTree × LockStage :=
  if h : stage.busy then
    have := bound_step h authority now tree
    advance authority now (stage.step authority now tree).1 (stage.step authority now tree).2
  else (tree, stage)
termination_by stage.bound

end LockStage

namespace Authority

/-- Wait for every further attempt, of which there are at most `left`. The number is the
time that was waited, in milliseconds. -/
def await (authority : Authority) (now : Int) :
    Nat → FileTree × LockStage → Nat → FileTree × LockStage × Nat
  | left + 1, (tree, .asleep n), waited =>
    authority.await now left (LockStage.advance authority now tree (.creating n))
      (waited + authority.interval)
  | _, (tree, stage), waited => (tree, stage, waited)

/-- Take the lock, with nobody else acting meanwhile, and tell how long that took. -/
def acquire (authority : Authority) (now : Int) (tree : FileTree) :
    FileTree × Except AuthorityError Unit × Nat :=
  let (tree, stage, waited) :=
    authority.await now authority.attempts (LockStage.advance authority now tree (.checking .created)) 0
  (tree, match stage with
    | .held => .ok ()
    | .failed error => .error error
    | _ => .error (.locked authority.path), waited)

def release (authority : Authority) (now : Int) (tree : FileTree) : FileTree :=
  (LockStage.advance authority now tree .releasingCreated).1

end Authority

end Xsmp
