import Xsmp.Proofs.Authority.Foreign
import Xsmp.Proofs.Authority.Taking

/-!
# A change of the file is made whole or not at all

A call can fail before it has the lock, because it does not get it, or with the lock in hand,
because the file breaks off inside an entry. In either case the file is not touched, and of the
lock files only those stand afterwards that kept the call from taking the lock. With the lock in
hand and a file that can be read nothing is left to fail, and the lock is given back.
-/

namespace Xsmp

namespace Authority

open LockFile

variable {α β : Type} {authority : Authority} {tree after : FileTree} {networkId : String}
  {new : List AuthorityEntry} {now : Int} {waited : Nat} {result : Except AuthorityError α}
  {error : AuthorityError}

/-! ## Files that can be read -/

/-- Whether the file is not there or consists of complete entries. -/
def Sound (authority : Authority) (tree : FileTree) : Prop :=
  tree.found? authority.path = none ∨
    ∃ contents entries, tree.read authority.path = .ok contents ∧
      AuthorityEntry.decodeAll? contents = some entries

theorem read_of_sound (h : tree.Available authority.path) (hsound : authority.Sound tree) :
    ∃ entries, authority.read tree = .ok entries := by
  rcases hsound with habsent | ⟨contents, entries, hread, hdecode⟩
  · exact ⟨[], by simp only [read, FileTree.read_of_absent h habsent]⟩
  · exact ⟨entries, by simp only [read, hread, hdecode]⟩

/-- What stands at the place of the file is a file, so nothing else can go wrong in reading. -/
theorem read_of_not_sound (h : tree.Available authority.path) (hsound : ¬ authority.Sound tree) :
    authority.read tree = .error (.truncated authority.path) := by
  rw [Sound, not_or] at hsound
  obtain ⟨place, identity, contents, modified, hfound⟩ := h.file.resolve_left hsound.1
  have hread := FileTree.read_of_found? hfound
  have hdecode : AuthorityEntry.decodeAll? contents = none := by
    rw [Option.eq_none_iff_forall_ne_some]
    exact fun entries hsome => hsound.2 ⟨contents, entries, hread, hsome⟩
  simp only [read, hread, hdecode]

/-! ## With the lock in hand -/

/-- Taking the lock leaves the file as it was. -/
theorem available_of_beside (h : tree.Available authority.path)
    (hbeside : Beside authority.path tree after) :
    after.Available authority.path ∧ after.found? authority.path = tree.found? authority.path ∧
      after.read authority.path = tree.read authority.path := by
  obtain ⟨place, hplace⟩ := h.located
  have hfound : after.found? authority.path = tree.found? authority.path :=
    FileTree.found?_congr hbeside.same fun other hother =>
      hbeside.other other fun _ hfile => locate_path_ne hfile hother
  exact ⟨h.of_found?_eq hbeside.same hfound, hfound, hbeside.read_eq hplace⟩

theorem sound_congr (hfound : after.found? authority.path = tree.found? authority.path)
    (hread : after.read authority.path = tree.read authority.path) :
    authority.Sound after ↔ authority.Sound tree := by
  rw [Sound, hfound, hread, Sound]

/-- A file that can be read is changed, and the lock is given back. -/
theorem replaceAndRelease_of_sound (h : tree.Available authority.path)
    (hsound : authority.Sound tree)
    (hheld : ∀ file : LockFile, FileTree.IsFile (tree.found? (file.of authority.path)))
    (networkId : String) (new : List AuthorityEntry) (now : Int) :
    ∃ after, authority.replaceAndRelease tree networkId new now = (after, .ok ()) ∧
      ∀ file : LockFile, after.found? (file.of authority.path) = none := by
  obtain ⟨entries, hread⟩ := read_of_sound h hsound
  obtain ⟨written, hwrite⟩ := FileTree.write_of_available h (AuthorityEntry.encodeAll
    (entries.filter (AuthorityEntry.foreign networkId) ++ new)) now
  have hreplace : authority.replace tree networkId new now = .ok written := by
    simp only [replace, hread, write, hwrite, Bind.bind, Except.bind]
  rw [replaceAndRelease, hreplace]
  exact ⟨_, rfl, found?_release now fun file => FileTree.isFile_write hwrite (hheld file)⟩

/-- A file that breaks off inside an entry is not changed, and the lock is given back. -/
theorem replaceAndRelease_of_not_sound (h : tree.Available authority.path)
    (hsound : ¬ authority.Sound tree)
    (hheld : ∀ file : LockFile, FileTree.IsFile (tree.found? (file.of authority.path)))
    (networkId : String) (new : List AuthorityEntry) (now : Int) :
    ∃ after, authority.replaceAndRelease tree networkId new now =
        (after, .error (.truncated authority.path)) ∧
      ∀ file : LockFile, after.found? (file.of authority.path) = none := by
  have hreplace : authority.replace tree networkId new now =
      .error (.truncated authority.path) := by
    simp only [replace, read_of_not_sound h hsound, Bind.bind, Except.bind]
  rw [replaceAndRelease, hreplace]
  exact ⟨_, rfl, found?_release now hheld⟩

/-! ## The whole call -/

/-- A call that fails has changed nothing but lock files. -/
theorem beside_of_error
    (h : authority.update tree networkId new now = (after, .error error, waited)) :
    Beside authority.path tree after := by
  have hacquired := beside_acquire authority now tree
  unfold update at h
  rcases hacquire : authority.acquire now tree with ⟨locked, refused | ⟨⟩, waited'⟩
  · rw [hacquire] at h hacquired
    cases h
    exact hacquired
  · rw [hacquire] at h hacquired
    simp only [replaceAndRelease] at h
    cases hreplace : authority.replace locked networkId new now with
    | error cause =>
      rw [hreplace] at h
      cases h
      exact hacquired.trans (beside_release authority now locked)
    | ok written =>
      rw [hreplace] at h
      cases h

/-- What one call comes to, which is to leave the entries `new` for a network id. -/
structure AllOrNothing (authority : Authority) (tree : FileTree) (networkId : String)
    (new : List AuthorityEntry) (now : Int) (after : FileTree) (result : Except AuthorityError α)
    (waited : Nat) : Prop where
  /-- The call succeeds if the lock is tried at least once, every lock file that stands is left
  over, and the file is not there or can be read; and only then. -/
  succeeds : (∃ value, result = .ok value) ↔
    authority.Obtainable tree now ∧ authority.Sound tree
  /-- A call that succeeds has not waited, leaves no lock file and has changed the file. -/
  done : ∀ value, result = .ok value → waited = 0 ∧
    (∀ file : LockFile, after.found? (file.of authority.path) = none) ∧
      ∃ entries, authority.read tree = .ok entries ∧
        after.read authority.path = .ok (AuthorityEntry.encodeAll
          (entries.filter (AuthorityEntry.foreign networkId) ++ new))
  /-- Without an attempt, or with a lock file in the way, the lock is reported, after a wait
  between any two attempts. -/
  locked : ¬ authority.Obtainable tree now → result = .error (.locked authority.path) ∧
    waited = (authority.attempts - 1) * authority.interval
  /-- With the lock in hand a file that breaks off inside an entry is reported at once. -/
  truncated : authority.Obtainable tree now → ¬ authority.Sound tree →
    result = .error (.truncated authority.path) ∧ waited = 0
  /-- A call that fails leaves the file as it was. -/
  kept : ∀ error, result = .error error →
    after.found? authority.path = tree.found? authority.path ∧
      after.read authority.path = tree.read authority.path
  /-- After a call that fails those lock files stand that were in its way, untouched, and none
  that it has made. -/
  left : ∀ error, result = .error error → ∀ file : LockFile,
    after.found? (file.of authority.path) =
      if file.fresh authority.path tree now then tree.found? (file.of authority.path) else none

/-- A call that gets the lock gets it at once, and finds the file as it was. -/
theorem update_of_obtainable (h : Writable authority.path tree)
    (hfree : authority.Obtainable tree now) (networkId : String) (new : List AuthorityEntry) :
    ∃ after result, authority.update tree networkId new now = (after, result, 0) ∧
      (∀ file : LockFile, after.found? (file.of authority.path) = none) ∧
      (authority.Sound tree ∧ result = .ok () ∨
        ¬ authority.Sound tree ∧ result = .error (.truncated authority.path)) := by
  obtain ⟨held, hacquire, hheld⟩ := acquire_of_obtainable h hfree
  have hbeside := beside_acquire authority now tree
  rw [hacquire] at hbeside
  obtain ⟨havailable, hfound, hread⟩ := available_of_beside h.whole hbeside
  have hsame := sound_congr hfound hread
  by_cases hsound : authority.Sound tree
  · obtain ⟨after, hreplace, hafter⟩ :=
      replaceAndRelease_of_sound havailable (hsame.mpr hsound) hheld networkId new now
    exact ⟨after, .ok (), by simp only [update, hacquire, hreplace], hafter, .inl ⟨hsound, rfl⟩⟩
  · obtain ⟨after, hreplace, hafter⟩ :=
      replaceAndRelease_of_not_sound havailable (mt hsame.mp hsound) hheld networkId new now
    exact ⟨after, .error (.truncated authority.path), by simp only [update, hacquire, hreplace],
      hafter, .inr ⟨hsound, rfl⟩⟩

theorem kept_of_error (h : Writable authority.path tree)
    (hupdate : authority.update tree networkId new now = (after, .error error, waited)) :
    after.found? authority.path = tree.found? authority.path ∧
      after.read authority.path = tree.read authority.path :=
  (available_of_beside h.whole (beside_of_error hupdate)).2

/-- A change by its three outcomes: the lock is not to be had, or the file breaks off, or
neither. -/
theorem allOrNothing_update {result : Except AuthorityError Unit}
    (h : Writable authority.path tree)
    (hupdate : authority.update tree networkId new now = (after, result, waited)) :
    authority.AllOrNothing tree networkId new now after result waited := by
  by_cases hfree : authority.Obtainable tree now
  · obtain ⟨after', result', hupdate', hgone, hresult⟩ :=
      update_of_obtainable h hfree networkId new
    rw [hupdate] at hupdate'
    cases hupdate'
    have hfresh : ∀ file : LockFile, after.found? (file.of authority.path) =
        if file.fresh authority.path tree now then tree.found? (file.of authority.path)
        else none := by
      intro file
      rw [hgone, hfree.free, if_neg Bool.false_ne_true]
    rcases hresult with ⟨hsound, rfl⟩ | ⟨hsound, rfl⟩
    · exact
        { succeeds := iff_of_true ⟨(), rfl⟩ ⟨hfree, hsound⟩
          done := fun _ _ => ⟨rfl, hgone, update_ok hupdate⟩
          locked := fun hlocked => absurd hfree hlocked
          truncated := fun _ hbroken => absurd hsound hbroken
          kept := fun _ herror => nomatch herror
          left := fun _ herror => nomatch herror }
    · exact
        { succeeds := iff_of_false (fun ⟨_, hok⟩ => nomatch hok) fun hboth => hsound hboth.2
          done := fun _ hok => nomatch hok
          locked := fun hlocked => absurd hfree hlocked
          truncated := fun _ _ => ⟨rfl, rfl⟩
          kept := fun _ _ => kept_of_error h hupdate
          left := fun _ _ => hfresh }
  · obtain ⟨after', hacquire, hleft⟩ := acquire_of_not_obtainable h hfree
    have hlocked : authority.update tree networkId new now = (after',
        .error (.locked authority.path), (authority.attempts - 1) * authority.interval) := by
      rw [update, hacquire]
    rw [hupdate] at hlocked
    cases hlocked
    exact
      { succeeds := iff_of_false (fun ⟨_, hok⟩ => nomatch hok) fun hboth => hfree hboth.1
        done := fun _ hok => nomatch hok
        locked := fun _ => ⟨rfl, rfl⟩
        truncated := fun hobtainable => absurd hobtainable hfree
        kept := fun _ _ => kept_of_error h hupdate
        left := fun _ _ => hleft }

/-- It does not matter what a call returns. -/
theorem AllOrNothing.map
    (h : authority.AllOrNothing tree networkId new now after result waited) (f : α → β) :
    authority.AllOrNothing tree networkId new now after (result.map f) waited := by
  cases result with
  | error error =>
    exact
      { succeeds := iff_of_false (fun ⟨_, hok⟩ => nomatch hok) fun hboth =>
          nomatch h.succeeds.mpr hboth
        done := fun _ hok => nomatch hok
        locked := fun hlocked => (h.locked hlocked).imp_left (congrArg (Except.map f))
        truncated := fun hfree hbroken =>
          (h.truncated hfree hbroken).imp_left (congrArg (Except.map f))
        kept := fun _ _ => h.kept error rfl
        left := fun _ _ => h.left error rfl }
  | ok value =>
    exact
      { succeeds := iff_of_true ⟨f value, rfl⟩ (h.succeeds.mp ⟨value, rfl⟩)
        done := fun _ _ => h.done value rfl
        locked := fun hlocked => nomatch (h.locked hlocked).1
        truncated := fun hfree hbroken => nomatch (h.truncated hfree hbroken).1
        kept := fun _ herror => nomatch herror
        left := fun _ herror => nomatch herror }

/-- **A call changes the file or nothing.** In a directory in which the file and its lock files
can be written, with nobody else acting, both calls succeed exactly when the lock is tried,
every lock file that stands is left over, and the file is not there or can be read. In every
other case they report the lock, after all waits between the attempts, or the file, at once;
the file is as it was, and of the lock files only those stand that were in the way. -/
theorem all_or_nothing (h : Writable authority.path tree) (networkId : String) (now : Int) :
    (∀ connection session after result waited,
      authority.addNetwork tree networkId connection session now = (after, result, waited) →
        authority.AllOrNothing tree networkId
          (AuthorityEntry.ofSession networkId connection session) now after result waited) ∧
      ∀ after result waited,
        authority.removeNetwork tree networkId now = (after, result, waited) →
          authority.AllOrNothing tree networkId [] now after result waited := by
  constructor
  · intro connection session after result waited hadd
    simp only [addNetwork] at hadd
    cases hadd
    exact (allOrNothing_update h rfl).map _
  · exact fun _ _ _ hremove => allOrNothing_update h hremove

/-- The file has one byte; the created lock file is left over, the linked one has just been
made. After two waits the lock is reported, the one file is gone and the other stands. -/
theorem all_or_nothing_linked :
    let authority : Authority := { path := ⟨"/a"⟩, attempts := 3 }
    let tree := ((({} : FileTree).putFile ["a"] [0] 0).putFile ["a-c"] [] (-staleAge)).putFile
      ["a-l"] [] 0
    let (after, result, waited) := authority.addNetwork tree "me" [1] [2] 0
    result = .error (.locked ⟨"/a"⟩) ∧ waited = 4000 ∧ after.read ⟨"/a"⟩ = .ok [0] ∧
      after.found? ⟨"/a-c"⟩ = none ∧ after.found? ⟨"/a-l"⟩ = some (["a-l"], .file 2 [] 0) := by
  intro authority tree
  have hwhole : tree.found? authority.path = some (["a"], .file 0 [0] 0) :=
    FileTree.found?_eq_some_iff.mpr ⟨by decide +kernel, by
      simp [tree, FileTree.node?, FileTree.putFile, FileTree.put, List.lookup_cons]⟩
  have hcreated : tree.found? (LockFile.created.of authority.path) =
      some (["a-c"], .file 1 [] (-staleAge)) :=
    FileTree.found?_eq_some_iff.mpr ⟨by decide +kernel, by
      simp [tree, FileTree.node?, FileTree.putFile, FileTree.put, List.lookup_cons]⟩
  have hlinked : tree.found? (LockFile.linked.of authority.path) =
      some (["a-l"], .file 2 [] 0) :=
    FileTree.found?_eq_some_iff.mpr ⟨by decide +kernel, by
      simp [tree, FileTree.node?, FileTree.putFile, FileTree.put]⟩
  have hwritable : Writable authority.path tree := by
    refine ⟨⟨by decide +kernel, ⟨["a"], by decide +kernel⟩, .inr ⟨_, _, _, _, hwhole⟩⟩, ?_⟩
    intro file
    cases file with
    | created =>
      exact ⟨by decide +kernel, ⟨["a-c"], by decide +kernel⟩, .inr ⟨_, _, _, _, hcreated⟩⟩
    | linked =>
      exact ⟨by decide +kernel, ⟨["a-l"], by decide +kernel⟩, .inr ⟨_, _, _, _, hlinked⟩⟩
  rcases hadd : authority.addNetwork tree "me" [1] [2] 0 with ⟨after, result, waited⟩
  have hcall := (all_or_nothing hwritable "me" 0).1 [1] [2] after result waited hadd
  have hfresh : LockFile.linked.fresh authority.path tree 0 = true := by decide +kernel
  have hstale : LockFile.created.fresh authority.path tree 0 = false := by decide +kernel
  obtain ⟨hresult, hwaited⟩ := hcall.locked fun hfree =>
    Bool.false_ne_true ((hfree.free .linked).symm.trans hfresh)
  refine ⟨hresult, hwaited.trans (by decide +kernel), ?_, ?_, ?_⟩
  · exact (hcall.kept _ hresult).2.trans (FileTree.read_of_found? hwhole)
  · have hleft := hcall.left _ hresult .created
    rwa [hstale, if_neg Bool.false_ne_true] at hleft
  · have hleft := hcall.left _ hresult .linked
    rwa [hfresh, if_pos rfl, hlinked] at hleft

end Authority

end Xsmp
