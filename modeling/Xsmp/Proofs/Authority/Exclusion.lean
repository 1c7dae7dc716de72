import Xsmp.Proofs.Authority.Ownership

/-!
# When the lock is held by one process at a time

Any number of processes take and give back the lock of one authority file, and between two
operations of one of them the others may do as many of theirs. As long as no lock is broken,
each lock file has an owner, and that keeps the processes apart.

The second file matters when the lock is given back. The created file goes first, so another
process may create its own while the linked one still stands; it cannot link it and takes its
own file back.

What a process removes when it breaks a lock is whatever stands at the path by then, and that
need not be what was found to be left over. So a process that is suspended before it looks at
the clock can break a lock that has just been taken, though no lock file ever becomes old.
-/

namespace Xsmp

/-- None of the lock files is left over by `now`. -/
def Young (path : Path) (tree : FileTree) (now : Int) : Prop :=
  ∀ (file : LockFile) (modified : Int), tree.modified? (file.of path) = some modified →
    now - modified < Authority.staleAge

instance (path : Path) (tree : FileTree) (now : Int) : Decidable (Young path tree now) :=
  decidable_of_iff
    (∀ file ∈ [LockFile.created, .linked], ∀ modified ∈ tree.modified? (file.of path),
      now - modified < Authority.staleAge)
    ⟨fun h file modified => h file (by cases file <;> decide) modified,
      fun h file _ modified => h file modified⟩

namespace LockStage

variable {authority : Authority} {tree : FileTree} {now : Int} {file : LockFile}
  {stage : LockStage}

/-- A lock is only broken after a look at the clock. -/
theorem judging_of_breaking (h : (stage.step authority now tree).2 = .breaking file) :
    ∃ modified, stage = .judging file modified ∧ Authority.staleAge ≤ now - modified := by
  cases stage with
  | checking looked =>
    simp only [step] at h
    split at h
    · cases h
    · exact absurd h (ne_of_bare (bare_checked authority looked) rfl)
  | judging looked modified =>
    simp only [step] at h
    split at h
    · rename_i hage
      cases h
      exact ⟨modified, rfl, hage⟩
    · exact absurd h (ne_of_bare (bare_checked authority looked) rfl)
  | breaking looked => exact absurd h (ne_of_bare (bare_checked authority looked) rfl)
  | creating left =>
    simp only [step] at h
    split at h
    · cases h
    · exact absurd h (ne_of_bare (bare_retry authority left) rfl)
    · cases h
  | linking left =>
    simp only [step] at h
    split at h <;> cases h
  | undoing left error =>
    cases error with
    | none => exact absurd h (ne_of_bare (bare_retry authority left) rfl)
    | some error => cases h
  | asleep | held | failed | releasingCreated | releasingLinked | released => cases h

end LockStage

namespace Contest

variable {ι : Type} {authority : ι → Authority} {path : Path} {contest next : Contest ι}

/-! ## Every interleaving -/

section Steps

variable [DecidableEq ι]

/-- What a process does at `now`, and what comes of it. -/
inductive Step (authority : ι → Authority) (path : Path) (contest : Contest ι) (i : ι)
    (now : Int) : Contest ι → Prop
  /-- A process that has nothing to do with the lock sets out to take it. -/
  | begins (h : (contest.stage i).idle = true) :
    Step authority path contest i now (contest.turn path i (contest.tree, .checking .created))
  /-- A process does one operation, or has waited for its next attempt. -/
  | operates :
    Step authority path contest i now
      (contest.turn path i ((contest.stage i).step (authority i) now contest.tree))
  /-- A process that holds the lock sets out to give it back. -/
  | drops (h : contest.stage i = .held) :
    Step authority path contest i now (contest.turn path i (contest.tree, .releasingCreated))

/-- What a process has done, and when. -/
structure Act (ι : Type) where
  actor : ι
  now : Int
  before : Contest ι
  after : Contest ι

/-- The contests that come about when nobody has begun and no lock file is there, with all that
processes have done up to then, the last of it first. -/
inductive Run (authority : ι → Authority) (path : Path) : List (Act ι) → Contest ι → Prop
  | start {contest : Contest ι} (absent : ∀ file, contest.lock? path file = none)
      (idle : ∀ i, (contest.stage i).idle = true) (unmade : ∀ file, contest.maker file = none) :
    Run authority path [] contest
  | acts {acts : List (Act ι)} {contest next : Contest ι} {i : ι} {now : Int}
      (h : Run authority path acts contest) (s : Step authority path contest i now next) :
    Run authority path (⟨i, now, contest, next⟩ :: acts) next
  /-- Anything else happens in the file system, such as a change of the authority file. The
  lock files are not touched. -/
  | elsewhere {acts : List (Act ι)} {contest : Contest ι} {tree : FileTree}
      (h : Run authority path acts contest)
      (same : ∀ file : LockFile, tree.found? (file.of path) = contest.lock? path file) :
    Run authority path acts { contest with tree }

end Steps

/-! ## What the lock is for -/

namespace Act

/-- A lock file disappears or becomes another, and the process has not made it. -/
def Robs (act : Act ι) (path : Path) (file : LockFile) : Prop :=
  ∃ found, act.before.lock? path file = some found ∧ act.after.lock? path file ≠ some found ∧
    act.before.maker file ≠ some act.actor

/-- The process removes a lock file that it takes for left over. -/
def Breaks (act : Act ι) (path : Path) (file : LockFile) : Prop :=
  act.before.stage act.actor = .breaking file ∧ act.before.lock? path file ≠ none

instance (act : Act ι) (path : Path) (file : LockFile) : Decidable (act.Breaks path file) :=
  inferInstanceAs (Decidable (_ ∧ _))

/-- The process looks at the clock ten minutes or more after the time at which the lock file
that it has looked at was written. -/
def Late (act : Act ι) (file : LockFile) : Prop :=
  ∃ modified, act.before.stage act.actor = .judging file modified ∧
    Authority.staleAge ≤ act.now - modified

end Act

/-- What the lock is for, at one moment. -/
structure Exclusive (contest : Contest ι) (path : Path) : Prop where
  /-- Two processes do not hold the lock at once. -/
  one : ∀ i j, contest.stage i = .held → contest.stage j = .held → i = j
  /-- While no process has to do with the lock, no lock file is there. -/
  clean : (∀ i, (contest.stage i).idle = true) → ∀ file, contest.lock? path file = none

/-- What the lock is for, from the start up to `contest`. -/
structure Excludes (path : Path) (acts : List (Act ι)) (contest : Contest ι) : Prop where
  always : ∀ moment ∈ contest :: acts.map Act.before, moment.Exclusive path
  /-- Every process leaves the lock files of the others alone. -/
  own : ∀ act ∈ acts, ∀ file, ¬ act.Robs path file

theorem exclusive_of_owned (h : ∀ file, Owned contest path file) : contest.Exclusive path where
  one i j hi hj := (h .linked).unique (by rw [hi]; rfl) (by rw [hj]; rfl)
  clean hidle file := by
    refine (h file).absent ?_
    cases hmaker : contest.maker file with
    | none => rfl
    | some i =>
      have howns := ((h file).owner i).mp hmaker
      rw [LockStage.owns_of_idle (hidle i)] at howns
      cases howns

/-! ## One step -/

variable [DecidableEq ι] {i : ι} {now : Int} {acts : List (Act ι)}

/-- What a process that breaks no lock does to a lock file. -/
theorem Step.turn (hpath : ∀ i, (authority i).path = path)
    (howned : ∀ file, Owned contest path file) (s : Step authority path contest i now next)
    (hbreak : ∀ file, ¬ (Act.mk i now contest next).Breaks path file) (file : LockFile) :
    ∃ result, next = contest.turn path i result ∧
      LockStage.Turn (contest.lock? path file) (result.1.found? (file.of path))
        ((contest.stage i).owns file) (result.2.owns file) := by
  cases s with
  | begins hidle =>
    refine ⟨_, rfl, ?_⟩
    rw [LockStage.owns_of_idle hidle]
    exact .stays rfl
  | operates =>
    refine ⟨_, rfl, ?_⟩
    have hfile : ∀ file, (contest.stage i).owns file = true →
        FileTree.IsFile (contest.tree.found? (file.of (authority i).path)) := by
      intro file howns
      rw [hpath i]
      exact (howned file).isFile_of_owns howns
    have hnone : ∀ file, contest.stage i = .breaking file →
        contest.tree.found? (file.of (authority i).path) = none := by
      intro file hstage
      rw [hpath i]
      by_contra hstands
      exact hbreak file ⟨hstage, hstands⟩
    have hturn := LockStage.turn_step now hfile hnone file
    rw [hpath i] at hturn
    exact hturn
  | drops hheld =>
    refine ⟨_, rfl, ?_⟩
    rw [hheld]
    exact .stays rfl

/-- A process that breaks no lock leaves the lock files of the others alone. -/
theorem Step.not_robs (hpath : ∀ i, (authority i).path = path)
    (howned : ∀ file, Owned contest path file) (s : Step authority path contest i now next)
    (hbreak : ∀ file, ¬ (Act.mk i now contest next).Breaks path file) (file : LockFile) :
    ¬ (Act.mk i now contest next).Robs path file := by
  rintro ⟨found, hfound, hgone, hmaker⟩
  obtain ⟨result, rfl, hturn⟩ := s.turn hpath howned hbreak file
  change contest.lock? path file = some found at hfound
  change result.1.found? (file.of path) ≠ some found at hgone
  refine hmaker (((howned file).owner i).mpr ?_)
  generalize (contest.stage i).owns file = owned at hturn
  generalize result.2.owns file = owns at hturn
  cases hturn with
  | stays same => exact absurd (same.trans hfound) hgone
  | makes absent isFile =>
    rw [hfound] at absent
    cases absent
  | removes absent => rfl

/-- A process that breaks a lock has not made the file that it removes. -/
theorem Step.robs (hpath : ∀ i, (authority i).path = path)
    (howned : ∀ file, Owned contest path file) (s : Step authority path contest i now next)
    {file : LockFile} (hbreaks : (Act.mk i now contest next).Breaks path file) :
    (Act.mk i now contest next).Robs path file := by
  obtain ⟨hstage, hstands⟩ := hbreaks
  change contest.stage i = .breaking file at hstage
  change contest.lock? path file ≠ none at hstands
  obtain ⟨found, hfound⟩ := Option.ne_none_iff_exists'.mp hstands
  -- what stands has an owner, and a process that is about to break a lock owns nothing
  have hisFile : FileTree.IsFile (contest.lock? path file) := by
    cases hmaker : contest.maker file with
    | none => exact absurd ((howned file).absent hmaker) hstands
    | some j => exact (howned file).isFile j hmaker
  refine ⟨found, hfound, ?_, fun hmaker => ?_⟩
  · cases s with
    | begins hidle =>
      rw [hstage] at hidle
      cases hidle
    | operates =>
      have hgone : ((contest.stage i).step (authority i) now contest.tree).1.found? (file.of path) =
          none := by
        rw [hstage, LockStage.step, hpath i]
        exact (LockFile.removed_of_isFile hisFile).absent
      intro hafter
      cases hgone.symm.trans hafter
    | drops hheld =>
      rw [hstage] at hheld
      cases hheld
  · have howns := ((howned file).owner i).mp hmaker
    rw [hstage] at howns
    cases howns

namespace Run

/-- While no lock is broken, both lock files are owned. -/
theorem owned (hpath : ∀ i, (authority i).path = path) (h : Run authority path acts contest)
    (hunbroken : ∀ act ∈ acts, ∀ file, ¬ act.Breaks path file) :
    ∀ file, Owned contest path file := by
  induction h with
  | start absent idle unmade =>
    refine fun file => ⟨fun i => ?_, fun i hi => ?_, fun _ => absent file⟩
    · rw [unmade file, LockStage.owns_of_idle (idle i)]
      exact iff_of_false (by simp) Bool.false_ne_true
    · rw [unmade file] at hi
      cases hi
  | acts h s ih =>
    obtain ⟨hact, hacts⟩ := List.forall_mem_cons.mp hunbroken
    intro file
    obtain ⟨result, rfl, hturn⟩ := s.turn hpath (ih hacts) hact file
    exact (ih hacts file).turn hturn
  | elsewhere h same ih =>
    refine fun file => ⟨(ih hunbroken file).owner, fun i hi => ?_, fun hnone => ?_⟩
    · exact (congrArg FileTree.IsFile (same file)).mpr ((ih hunbroken file).isFile i hi)
    · exact (same file).trans ((ih hunbroken file).absent hnone)

/-- While no lock is broken, the lock is what it is for. -/
theorem excludes (hpath : ∀ i, (authority i).path = path) (h : Run authority path acts contest)
    (hunbroken : ∀ act ∈ acts, ∀ file, ¬ act.Breaks path file) : Excludes path acts contest := by
  have hexclusive : contest.Exclusive path := exclusive_of_owned (h.owned hpath hunbroken)
  induction h with
  | start absent idle unmade =>
    exact ⟨List.forall_mem_cons.mpr ⟨hexclusive, fun _ hnil => absurd hnil List.not_mem_nil⟩,
      fun _ hnil => absurd hnil List.not_mem_nil⟩
  | acts h s ih =>
    obtain ⟨hact, hacts⟩ := List.forall_mem_cons.mp hunbroken
    have howned := h.owned hpath hacts
    have hbefore := ih hacts (exclusive_of_owned howned)
    exact ⟨List.forall_mem_cons.mpr ⟨hexclusive, hbefore.always⟩,
      List.forall_mem_cons.mpr ⟨s.not_robs hpath howned hact, hbefore.own⟩⟩
  | elsewhere h same ih =>
    have hbefore := ih hunbroken (exclusive_of_owned (h.owned hpath hunbroken))
    exact ⟨List.forall_mem_cons.mpr ⟨hexclusive, (List.forall_mem_cons.mp hbefore.always).2⟩,
      hbefore.own⟩

/-- The first lock that is broken is one that another process holds or is about to take. -/
theorem unbroken (hpath : ∀ i, (authority i).path = path) (h : Run authority path acts contest)
    (hown : ∀ act ∈ acts, ∀ file, ¬ act.Robs path file) :
    ∀ act ∈ acts, ∀ file, ¬ act.Breaks path file := by
  induction h with
  | start => exact fun _ hnil => absurd hnil List.not_mem_nil
  | acts h s ih =>
    obtain ⟨hact, hacts⟩ := List.forall_mem_cons.mp hown
    have howned := h.owned hpath (ih hacts)
    exact List.forall_mem_cons.mpr
      ⟨fun file hbreaks => hact file (s.robs hpath howned hbreaks), ih hacts⟩
  | elsewhere h same ih => exact ih hown

/-- A process that is about to break a lock has looked at the clock late. -/
theorem late_of_breaking (h : Run authority path acts contest) {file : LockFile}
    (hstage : contest.stage i = .breaking file) :
    ∃ late ∈ acts, late.actor = i ∧ late.Late file := by
  induction h with
  | start absent idle unmade =>
    have hidle := idle i
    rw [hstage] at hidle
    cases hidle
  | @acts acts contest next j now h s ih =>
    -- another's act leaves the process where it was, and its own has been the look at the clock
    by_cases hi : i = j
    · subst hi
      have hnow : ∃ modified, contest.stage i = .judging file modified ∧
          Authority.staleAge ≤ now - modified := by
        cases s with
        | begins hidle => simp [turn] at hstage
        | operates =>
          have hstep : ((contest.stage i).step (authority i) now contest.tree).2 =
              .breaking file := by
            simpa [turn] using hstage
          exact LockStage.judging_of_breaking hstep
        | drops hheld => simp [turn] at hstage
      exact ⟨_, List.mem_cons_self, rfl, hnow⟩
    · have hbefore : contest.stage i = .breaking file := by
        cases s <;> simpa [turn, hi] using hstage
      obtain ⟨late, hmem, hlate⟩ := ih hbefore
      exact ⟨late, List.mem_cons_of_mem _ hmem, hlate⟩
  | elsewhere h same ih => exact ih hstage

/-- A lock is broken after a late look at the clock. -/
theorem late_of_breaks (h : Run authority path acts contest) {later earlier : List (Act ι)}
    {act : Act ι} (heq : acts = later ++ act :: earlier) {file : LockFile}
    (hbreaks : act.Breaks path file) :
    ∃ late ∈ earlier, late.actor = act.actor ∧ late.Late file := by
  induction h generalizing later with
  | start => exact absurd heq (by simp)
  | acts h s ih =>
    cases later with
    | nil =>
      cases heq
      exact h.late_of_breaking hbreaks.1
    | cons last later => exact ih (List.cons.inj heq).2
  | elsewhere h same ih => exact ih heq

/-- While nobody looks at the clock late, the lock is what it is for. -/
theorem excludes_of_timely (hpath : ∀ i, (authority i).path = path)
    (h : Run authority path acts contest) (htimely : ∀ act ∈ acts, ∀ file, ¬ act.Late file) :
    Excludes path acts contest := by
  refine h.excludes hpath fun act hact file hbreaks => ?_
  obtain ⟨later, earlier, heq⟩ := List.append_of_mem hact
  obtain ⟨late, hmem, -, hlate⟩ := h.late_of_breaks heq hbreaks
  have hacts : late ∈ acts := heq ▸ List.mem_append_right later (List.mem_cons_of_mem act hmem)
  exact htimely late hacts file hlate

end Run

/-- **When the lock is held by one process at a time.** Whatever the processes do between each
other's operations, if nobody else touches a lock file: two processes never hold the lock at
once, no process makes a lock file disappear or become another that it has not made itself, and
neither lock file is there while no process has to do with the lock, exactly as long as no
process breaks a lock. One that does has looked at the clock ten minutes or more after the time
at which the lock file that it had found was written. -/
theorem excludes_iff_unbroken (hpath : ∀ i, (authority i).path = path)
    (h : Run authority path acts contest) :
    (Excludes path acts contest ↔ ∀ act ∈ acts, ∀ file, ¬ act.Breaks path file) ∧
      ∀ later act earlier, acts = later ++ act :: earlier → ∀ file, act.Breaks path file →
        ∃ late ∈ earlier, late.actor = act.actor ∧ late.Late file :=
  ⟨⟨fun hexcludes => h.unbroken hpath hexcludes.own, h.excludes hpath⟩,
    fun _ _ _ heq _ => h.late_of_breaks heq⟩

/-! ## Processes in a given order -/

/-- A process does what is next for it: one that is idle sets out for the lock, and one that
holds it gives it back. -/
def proceed (authority : ι → Authority) (path : Path) (contest : Contest ι) (i : ι) (now : Int) :
    Contest ι :=
  contest.turn path i <|
    if (contest.stage i).idle then (contest.tree, .checking .created)
    else if contest.stage i = .held then (contest.tree, .releasingCreated)
    else (contest.stage i).step (authority i) now contest.tree

theorem step_proceed (authority : ι → Authority) (path : Path) (contest : Contest ι) (i : ι)
    (now : Int) : Step authority path contest i now (contest.proceed authority path i now) := by
  rw [proceed]
  split
  · exact .begins ‹_›
  · split
    · exact .drops ‹_›
    · exact .operates

/-- What has been done after processes have each done what is next for them, in a given order. -/
def play (authority : ι → Authority) (path : Path) :
    List (ι × Int) → List (Act ι) × Contest ι → List (Act ι) × Contest ι
  | [], played => played
  | (i, now) :: order, (acts, contest) =>
    let next := contest.proceed authority path i now
    play authority path order (⟨i, now, contest, next⟩ :: acts, next)

theorem Run.play (h : Run authority path acts contest) (order : List (ι × Int)) :
    Run authority path (play authority path order (acts, contest)).1
      (play authority path order (acts, contest)).2 := by
  induction order generalizing acts contest with
  | nil => exact h
  | cons entry order ih =>
    obtain ⟨i, now⟩ := entry
    exact ih (h.acts (step_proceed authority path contest i now))

/-- Processes at a file system without files. -/
def fresh (ι : Type) : Contest ι where
  tree := {}
  stage _ := .released
  maker _ := none

theorem run_fresh (authority : ι → Authority) : Run authority ⟨"/a"⟩ [] (fresh ι) := by
  refine .start (fun file => ?_) (fun _ => rfl) fun _ => rfl
  cases file <;> rfl

/-- One process has held the lock and gives it back. The other one has come in between the two
removals and could not link its file; it leaves the linked file of the first one alone. -/
theorem excludes_iff_unbroken_between_removals :
    let authority : Bool → Authority := fun _ => { path := ⟨"/a"⟩ }
    let order : List Bool :=
      .replicate 6 false ++ .replicate 5 true ++ .replicate 1 false ++ .replicate 2 true
    let played := play authority ⟨"/a"⟩ (order.map (·, 0)) ([], fresh Bool)
    played.2.stage false = .releasingLinked ∧ played.2.stage true = .undoing 9 none ∧
      played.2.maker .created = some true ∧ played.2.maker .linked = some false ∧
      ∀ now next, Step authority ⟨"/a"⟩ played.2 true now next → ∀ found,
        played.2.lock? ⟨"/a"⟩ .linked = some found → next.lock? ⟨"/a"⟩ .linked = some found := by
  intro authority order played
  have hmaker : played.2.maker .linked = some false := by decide +kernel
  have hstage : played.2.stage true = .undoing 9 none := by decide +kernel
  refine ⟨by decide +kernel, hstage, by decide +kernel, hmaker, fun now next s found hfound => ?_⟩
  have hrun : Run authority ⟨"/a"⟩ played.1 played.2 := (run_fresh authority).play _
  have hplayed : ∀ act ∈ played.1, ¬ act.Breaks ⟨"/a"⟩ .created ∧ ¬ act.Breaks ⟨"/a"⟩ .linked := by
    decide +kernel
  have hunbroken : ∀ act ∈ ⟨true, now, played.2, next⟩ :: played.1, ∀ file,
      ¬ act.Breaks ⟨"/a"⟩ file := by
    refine List.forall_mem_cons.mpr ⟨fun file hbreaks => ?_, fun act hact file => ?_⟩
    · have hnot := hstage.symm.trans hbreaks.1
      cases hnot
    · cases file with
      | created => exact (hplayed act hact).1
      | linked => exact (hplayed act hact).2
  have hexcludes := (excludes_iff_unbroken (fun _ => rfl) (hrun.acts s)).1.mpr hunbroken
  by_contra hgone
  refine hexcludes.own _ List.mem_cons_self .linked ⟨found, hfound, hgone, ?_⟩
  change played.2.maker .linked ≠ some true
  rw [hmaker]
  decide

/-- **Two processes hold the lock.** The second and the third have looked when the lock files of
the first were written, and are suspended before they look at the clock. Ten minutes later the
first has given back the lock and just taken it anew; they take its new lock files for the old
ones and remove one each, and the second takes the lock. No lock file is ever older than a
second. -/
theorem two_hold_the_lock :
    let authority : Fin 3 → Authority := fun _ => { path := ⟨"/a"⟩ }
    let order : List (Fin 3 × Int) :=
      -- the first one takes the lock, and the others look at its lock files
      .replicate 5 (0, 0) ++ .replicate 4 (1, 0) ++ .replicate 2 (2, 0) ++
        -- it gives the lock back and takes it anew
        .replicate 3 (0, 1) ++ .replicate 5 (0, 600) ++
        -- the others go on with their look at the clock
        .replicate 2 (2, 600) ++ .replicate 4 (1, 600)
    let played := play authority ⟨"/a"⟩
      (order.map fun (i, second) => (i, second * nanosPerSecond)) ([], fresh (Fin 3))
    Run authority ⟨"/a"⟩ played.1 played.2 ∧ (played.1.map Act.now).Pairwise (· ≥ ·) ∧
      (∀ act ∈ played.1,
        Young ⟨"/a"⟩ act.before.tree act.now ∧ Young ⟨"/a"⟩ act.after.tree act.now) ∧
      played.2.stage 0 = .held ∧ played.2.stage 1 = .held := by
  intro authority order played
  exact ⟨(run_fresh authority).play _, by decide +kernel, by decide +kernel, by decide +kernel,
    by decide +kernel⟩

end Contest

end Xsmp
