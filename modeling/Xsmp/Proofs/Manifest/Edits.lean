import Xsmp.Proofs.Manifest.Group

/-!
# Lines that say nothing

Much of a manifest says nothing about its program: comments and empty lines, lines of other
groups, keys with a language and keys that were given before. After such a line the same is found
as before it, and what follows is read alike. So it can be added, removed or changed, and the
manifest says what it said.
-/

namespace Xsmp

namespace Manifest

variable {before after lines : List (List Char)} {line : List Char}

/-! ## Lines and what was read before them -/

/-- After either of two lists of lines the same is found and what follows is read alike. -/
structure Alike (lines lines' : List (List Char)) : Prop where
  inGroup : InGroup lines ↔ InGroup lines'
  found : groupHeader ∈ lines ↔ groupHeader ∈ lines'
  given : ∀ key value, FirstGiven lines key value ↔ FirstGiven lines' key value
  notGiven : ∀ key, NotGiven lines key ↔ NotGiven lines' key
  sound : Sound lines ↔ Sound lines'

namespace Alike

variable {lines' lines'' : List (List Char)}

theorem refl (lines : List (List Char)) : Alike lines lines :=
  ⟨.rfl, .rfl, fun _ _ => .rfl, fun _ => .rfl, .rfl⟩

theorem symm (h : Alike lines lines') : Alike lines' lines :=
  ⟨h.inGroup.symm, h.found.symm, fun key value => (h.given key value).symm,
    fun key => (h.notGiven key).symm, h.sound.symm⟩

theorem trans (h : Alike lines lines') (h' : Alike lines' lines'') : Alike lines lines'' :=
  ⟨h.inGroup.trans h'.inGroup, h.found.trans h'.found,
    fun key value => (h.given key value).trans (h'.given key value),
    fun key => (h.notGiven key).trans (h'.notGiven key), h.sound.trans h'.sound⟩

theorem snoc (h : Alike lines lines') (line : List Char) :
    Alike (lines ++ [line]) (lines' ++ [line]) := by
  have hgives : ∀ key value, Gives lines line key value ↔ Gives lines' line key value :=
    fun _ _ => and_congr_left' h.inGroup
  have hspoils : Spoils lines line ↔ Spoils lines' line := by
    rw [Spoils, Spoils, h.inGroup]
  refine ⟨?_, ?_, ?_, ?_, ?_⟩
  · rw [inGroup_snoc, inGroup_snoc, h.inGroup]
  · rw [List.mem_append, List.mem_append, h.found]
  · intro key value
    rw [firstGiven_snoc, firstGiven_snoc, h.given, h.notGiven, hgives]
  · intro key
    simp only [notGiven_snoc, h.notGiven, hgives]
  · rw [sound_snoc, sound_snoc, h.sound, hspoils]

theorem append (h : Alike lines lines') (more : List (List Char)) :
    Alike (lines ++ more) (lines' ++ more) := by
  induction more generalizing lines lines' with
  | nil => simpa using h
  | cons line more ih => simpa using ih (h.snoc line)

end Alike

end Manifest

end Xsmp
