/-!
# Maps from keys

A finite map from numbers, kept as its entries in ascending order of the keys.
Whatever goes through all clients of a session goes through them in this order.
-/

namespace Xsmp

/-- A finite map from natural numbers. -/
structure KeyMap (α : Type) where
  entries : List (Nat × α) := []
  /-- Keys ascend, so none occurs twice. -/
  sorted : entries.Pairwise (·.1 < ·.1) := by simp

namespace KeyMap

variable {α : Type}

def empty : KeyMap α := {}

instance : Inhabited (KeyMap α) := ⟨empty⟩

variable (m : KeyMap α)

def keys : List Nat := m.entries.map Prod.fst

def values : List α := m.entries.map Prod.snd

def size : Nat := m.entries.length

def isEmpty : Bool := m.entries.isEmpty

def get? (k : Nat) : Option α := m.entries.lookup k

def contains (k : Nat) : Bool := (m.get? k).isSome

def erase (k : Nat) : KeyMap α where
  entries := m.entries.filter (·.1 != k)
  sorted := m.sorted.filter _

/-- Put a value at a key, in place of the one that may be there. -/
def insert (k : Nat) (a : α) : KeyMap α where
  entries := m.entries.filter (·.1 < k) ++ (k, a) :: m.entries.filter (k < ·.1)
  sorted := by
    refine List.pairwise_append.2 ⟨m.sorted.filter _, ?_, ?_⟩
    · refine List.pairwise_cons.2 ⟨fun e he => ?_, m.sorted.filter _⟩
      simpa using (List.mem_filter.1 he).2
    · intro e he f hf
      have low : e.1 < k := by simpa using (List.mem_filter.1 he).2
      rcases List.mem_cons.1 hf with rfl | hf
      · exact low
      · have high : k < f.1 := by simpa using (List.mem_filter.1 hf).2
        exact Nat.lt_trans low high

def map {β : Type} (f : Nat → α → β) : KeyMap β where
  entries := m.entries.map fun e => (e.1, f e.1 e.2)
  sorted := List.pairwise_map.2 m.sorted

/-- The value at `k`, changed, if there is one. -/
def modify (k : Nat) (f : α → α) : KeyMap α :=
  match m.get? k with
  | some a => m.insert k (f a)
  | none => m

theorem mem_keys_iff (k : Nat) : k ∈ m.keys ↔ ∃ a, (k, a) ∈ m.entries := by
  simp [keys]

theorem mem_keys_erase (k l : Nat) : l ∈ (m.erase k).keys ↔ l ∈ m.keys ∧ l ≠ k := by
  simp [keys, erase]

theorem mem_keys_insert (k l : Nat) (a : α) :
    l ∈ (m.insert k a).keys ↔ l = k ∨ l ∈ m.keys := by
  simp only [keys, insert, List.map_append, List.map_cons, List.mem_append, List.mem_cons,
    List.mem_map, List.mem_filter, decide_eq_true_eq]
  constructor
  · rintro (⟨e, ⟨he, _⟩, rfl⟩ | rfl | ⟨e, ⟨he, _⟩, rfl⟩)
    · exact .inr ⟨e, he, rfl⟩
    · exact .inl rfl
    · exact .inr ⟨e, he, rfl⟩
  · rintro (rfl | ⟨e, he, rfl⟩)
    · exact .inr (.inl rfl)
    · rcases Nat.lt_trichotomy e.1 k with h | h | h
      · exact .inl ⟨e, ⟨he, h⟩, rfl⟩
      · exact .inr (.inl h)
      · exact .inr (.inr ⟨e, ⟨he, h⟩, rfl⟩)

theorem keys_nodup : m.keys.Nodup := by
  have h : m.keys.Pairwise (· < ·) := List.pairwise_map.mpr m.sorted
  exact h.imp fun hlt => Nat.ne_of_lt hlt

/-! ## What is at a key -/

variable {m} {k l : Nat}

theorem contains_iff : m.contains k = true ↔ k ∈ m.keys := by
  rw [contains, get?, List.lookup_isSome_iff]
  simp [keys]

theorem contains_eq_false : m.contains k = false ↔ k ∉ m.keys := by
  rw [← Bool.not_eq_true, contains_iff]

theorem get?_isSome : (m.get? k).isSome = true ↔ k ∈ m.keys := contains_iff

theorem lookup_filter_of_keep {entries : List (Nat × α)} {keep : Nat × α → Bool}
    (h : ∀ a, keep (k, a) = true) : (entries.filter keep).lookup k = entries.lookup k := by
  induction entries with
  | nil => rfl
  | cons e rest ih =>
      obtain ⟨l, a⟩ := e
      by_cases hk : k = l
      · subst hk
        simp [h]
      · have hne : (k == l) = false := by simpa using hk
        rw [List.lookup_cons, hne, List.filter_cons]
        split
        · rw [List.lookup_cons, hne]
          exact ih
        · exact ih

theorem lookup_filter_of_drop {entries : List (Nat × α)} {keep : Nat × α → Bool}
    (h : ∀ a, keep (k, a) = false) : (entries.filter keep).lookup k = none := by
  rw [List.lookup_eq_none_iff]
  intro e he
  refine bne_iff_ne.mpr fun hk => ?_
  have hkeep := (List.mem_filter.mp he).2
  subst hk
  exact absurd (hkeep.symm.trans (h e.2)) (by simp)

theorem get?_erase_self : (m.erase k).get? k = none :=
  lookup_filter_of_drop fun _ => by simp

theorem get?_erase_of_ne (h : l ≠ k) : (m.erase k).get? l = m.get? l :=
  lookup_filter_of_keep fun _ => by simpa using h

theorem get?_insert_self {a : α} : (m.insert k a).get? k = some a := by
  have hlow : (m.entries.filter (·.1 < k)).lookup k = none :=
    lookup_filter_of_drop fun _ => by simp
  rw [get?, insert, List.lookup_append, hlow]
  simp

theorem get?_insert_of_ne {a : α} (h : l ≠ k) : (m.insert k a).get? l = m.get? l := by
  have hne : (l == k) = false := by simpa using h
  rw [get?, insert, List.lookup_append, List.lookup_cons, hne, get?]
  rcases Nat.lt_or_gt_of_ne h with hlt | hgt
  · have hhigh : (m.entries.filter (k < ·.1)).lookup l = none :=
      lookup_filter_of_drop fun _ => by simpa using Nat.le_of_lt hlt
    rw [lookup_filter_of_keep fun _ => by simpa using hlt, hhigh, Option.or_none]
  · have hlow : (m.entries.filter (·.1 < k)).lookup l = none :=
      lookup_filter_of_drop fun _ => by simpa using Nat.le_of_lt hgt
    rw [hlow, lookup_filter_of_keep fun _ => by simpa using hgt, Option.none_or]

/-- An entry is what is at its key. -/
theorem mem_entries_iff {a : α} : (k, a) ∈ m.entries ↔ m.get? k = some a := by
  rw [get?, List.lookup_eq_some_iff]
  constructor
  · intro h
    obtain ⟨before, after, heq⟩ := List.append_of_mem h
    refine ⟨before, after, heq, ?_⟩
    -- whatever stands before it has a smaller key
    have hsorted := m.sorted
    rw [heq, List.pairwise_append] at hsorted
    intro e he
    have hlt : e.1 < k := hsorted.2.2 e he (k, a) List.mem_cons_self
    exact bne_iff_ne.mpr (Nat.ne_of_gt hlt)
  · intro h
    obtain ⟨before, after, heq, _⟩ := h
    rw [heq]
    exact List.mem_append_right before List.mem_cons_self

/-- Nothing changes where there is nothing to erase. -/
theorem erase_of_get?_none (h : m.get? k = none) : m.erase k = m := by
  obtain ⟨entries, sorted⟩ := m
  have hkeep : entries.filter (·.1 != k) = entries := by
    refine List.filter_eq_self.mpr fun e he => ?_
    have hne := List.lookup_eq_none_iff.mp h e he
    exact bne_iff_ne.mpr fun heq => absurd heq.symm (bne_iff_ne.mp hne)
  simp only [erase, hkeep]

end KeyMap

end Xsmp
