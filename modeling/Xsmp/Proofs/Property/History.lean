import Mathlib.Data.List.Induction
import Mathlib.Data.List.Nodup
import Xsmp.Property.Store

/-!
# What a property store holds

A client sets and deletes properties, one after the other. What its store holds after that can be
told from these changes alone (`standing`): a property stands if it was set and nothing later is
about its name, and those that stand come in the order in which they were set. Under one name
there is what the last change about it has left (`lastValue`).
-/

namespace Xsmp

/-- Something that is done to the properties of a client. -/
inductive PropertyChange where
  | set (property : Property)
  | delete (name : String)

namespace PropertyChange

def name : PropertyChange → String
  | .set property => property.name
  | .delete name => name

/-- The property that a change leaves under its name. -/
def property? : PropertyChange → Option Property
  | .set property => some property
  | .delete _ => none

def apply (store : PropertyStore) : PropertyChange → PropertyStore
  | .set property => store.set property
  | .delete name => store.erase name

/-- The properties that stand after some changes: those that were set and whose name no later
change is about, in the order in which they were set. -/
def standing : List PropertyChange → List Property
  | [] => []
  | .delete _ :: later => standing later
  | .set property :: later =>
    if later.any (·.name == property.name) then standing later else property :: standing later

/-- The value that was last set under a name, unless it has been deleted since. -/
def lastValue (name : String) (changes : List PropertyChange) : Option PropertyValue :=
  ((changes.reverse.find? (·.name == name)).bind property?).map Property.value

variable {changes : List PropertyChange} {property : Property}

/-! ## The properties that stand -/

theorem standing_snoc (changes : List PropertyChange) (change : PropertyChange) :
    standing (changes ++ [change]) =
      (standing changes).filter (·.name != change.name) ++ change.property?.toList := by
  induction changes with
  | nil => cases change <;> rfl
  | cons first later ih =>
      cases first with
      | delete name => exact ih
      | set property =>
          rw [List.cons_append, standing, standing, ih, List.any_append]
          by_cases hlater : later.any (·.name == property.name) = true
          · simp [hlater]
          · by_cases hsame : change.name = property.name
            · simp [hlater, hsame]
            · simp [hlater, hsame, Ne.symm hsame]

/-- A property stands if it was set and nothing later is about its name. -/
theorem mem_standing : property ∈ standing changes ↔
    ∃ before later, changes = before ++ .set property :: later
      ∧ ∀ change ∈ later, change.name ≠ property.name := by
  induction changes with
  | nil => simp [standing]
  | cons first rest ih =>
      have hrest : (∃ before later, rest = before ++ .set property :: later
            ∧ ∀ change ∈ later, change.name ≠ property.name) →
          ∃ before later, first :: rest = before ++ .set property :: later
            ∧ ∀ change ∈ later, change.name ≠ property.name := by
        rintro ⟨before, later, rfl, hlater⟩
        exact ⟨first :: before, later, rfl, hlater⟩
      constructor
      · intro hmem
        cases first with
        | delete name => exact hrest (ih.mp hmem)
        | set other =>
            rw [standing] at hmem
            split at hmem
            · exact hrest (ih.mp hmem)
            · rename_i hlast
              rcases List.mem_cons.mp hmem with rfl | hmem
              · refine ⟨[], rest, rfl, fun change hchange hname => hlast ?_⟩
                exact List.any_eq_true.mpr ⟨change, hchange, by simp [hname]⟩
              · exact hrest (ih.mp hmem)
      · rintro ⟨before, later, heq, hlater⟩
        cases before with
        | nil =>
            obtain ⟨rfl, rfl⟩ := List.cons.inj heq
            have hlast : rest.any (·.name == property.name) = false := by simpa using hlater
            rw [standing, hlast]
            exact List.mem_cons_self
        | cons _ before =>
            obtain ⟨rfl, rfl⟩ := List.cons.inj heq
            have hmem := ih.mpr ⟨before, later, rfl, hlater⟩
            cases first with
            | delete name => exact hmem
            | set other =>
                rw [standing]
                split
                · exact hmem
                · exact List.mem_cons_of_mem _ hmem

/-- What stands before some changes and is not touched by them comes before what they leave. -/
theorem standing_append (changes more : List PropertyChange) :
    standing (changes ++ more) =
      (standing changes).filter (fun property => more.all (·.name != property.name))
        ++ standing more := by
  induction more using List.reverseRecOn with
  | nil => simp [standing]
  | append_singleton more change ih =>
      rw [← List.append_assoc, standing_snoc, ih, standing_snoc, List.filter_append,
        List.filter_filter, List.append_assoc]
      refine congrArg (· ++ _) (List.filter_congr fun property _ => ?_)
      rw [List.all_append, List.all_cons, List.all_nil, Bool.and_true, Bool.and_comm, bne_comm]

/-- Of two properties that stand, the one that was set first comes first. -/
theorem standing_ordered {before between later : List PropertyChange} {first second : Property}
    (hfirst : ∀ change ∈ between ++ .set second :: later, change.name ≠ first.name)
    (hsecond : ∀ change ∈ later, change.name ≠ second.name) :
    [first, second].Sublist
      (standing (before ++ .set first :: between ++ .set second :: later)) := by
  have hold : first ∈ (standing (before ++ .set first :: between)).filter
      (fun property => (PropertyChange.set second :: later).all (·.name != property.name)) := by
    refine List.mem_filter.mpr ⟨mem_standing.mpr ⟨before, between, rfl, fun change hmem => ?_⟩, ?_⟩
    · exact hfirst change (List.mem_append_left _ hmem)
    · refine List.all_eq_true.mpr fun change hmem => bne_iff_ne.mpr ?_
      exact hfirst change (List.mem_append_right _ hmem)
  have hnew : second ∈ standing (.set second :: later) := mem_standing.mpr ⟨[], later, rfl, hsecond⟩
  rw [standing_append]
  exact (List.singleton_sublist.mpr hold).append (List.singleton_sublist.mpr hnew)

/-! ## The store -/

theorem toList_apply (store : PropertyStore) (change : PropertyChange) :
    (apply store change).toList =
      store.toList.filter (·.name != change.name) ++ change.property?.toList := by
  cases change with
  | set property => rfl
  | delete name => exact (List.append_nil _).symm

/-- **A store holds what stands.** -/
theorem toList_foldl (changes : List PropertyChange) :
    (changes.foldl apply .empty).toList = standing changes := by
  -- from the end, where a change meets the store that the earlier ones have made
  induction changes using List.reverseRecOn with
  | nil => rfl
  | append_singleton changes change ih =>
      rw [List.foldl_append, standing_snoc, ← ih]
      exact toList_apply _ change

/-- A change concerns the property of its own name only. -/
theorem get?_apply (store : PropertyStore) (change : PropertyChange) (name : String) :
    (apply store change).get? name =
      if change.name = name then change.property? else store.get? name := by
  rw [PropertyStore.get?, toList_apply, List.find?_append]
  by_cases hname : change.name = name
  · subst hname
    have hnone : (store.toList.filter (·.name != change.name)).find? (·.name == change.name) =
        none := List.find?_eq_none.mpr (by simp)
    rw [hnone, if_pos rfl]
    cases change with
    | set property => simp [property?, PropertyChange.name]
    | delete name => rfl
  · have hsame : (store.toList.filter (·.name != change.name)).find? (·.name == name) =
        store.toList.find? (·.name == name) := by
      rw [List.find?_filter]
      refine congrArg (store.toList.find? ·) (funext fun property => ?_)
      by_cases h : property.name = name <;> simp [h, Ne.symm hname]
    have hnothing : change.property?.toList.find? (·.name == name) = none := by
      cases change with
      | set property => simpa [property?, PropertyChange.name] using hname
      | delete name => rfl
    rw [hsame, hnothing, if_neg hname, Option.or_none]
    rfl

/-- Changes that are not about a name leave what is there. -/
theorem get?_foldl_of_untouched {name : String} (h : ∀ change ∈ changes, change.name ≠ name)
    (store : PropertyStore) : (changes.foldl apply store).get? name = store.get? name := by
  induction changes generalizing store with
  | nil => rfl
  | cons change changes ih =>
      rw [List.foldl_cons, ih fun other hmem => h other (List.mem_cons_of_mem _ hmem), get?_apply,
        if_neg (h change List.mem_cons_self)]

/-- **Under a name a store has what the last change about it has left.** -/
theorem value_foldl (name : String) (changes : List PropertyChange) :
    ((changes.foldl apply .empty).get? name).map Property.value = lastValue name changes := by
  refine congrArg (Option.map Property.value) ?_
  induction changes using List.reverseRecOn with
  | nil => rfl
  | append_singleton changes change ih =>
      rw [List.foldl_append, List.foldl_cons, List.foldl_nil, get?_apply, ih, List.reverse_append,
        List.reverse_singleton, List.singleton_append, List.find?_cons]
      by_cases hname : change.name = name
      · simp [hname]
      · have hne : (change.name == name) = false := by simpa using hname
        rw [if_neg hname, hne]

end PropertyChange

/-! ## Deleting -/

/-- No name is held twice, so that to delete a property is to take the first of its name away. -/
theorem PropertyStore.toList_erase_eq_eraseP (store : PropertyStore) (name : String) :
    (store.erase name).toList = store.toList.eraseP (·.name == name) := by
  rw [toList_erase]
  have hnodup := store.nodup
  generalize store.toList = properties at hnodup
  induction properties with
  | nil => rfl
  | cons property rest ih =>
      obtain ⟨hfresh, hrest⟩ := List.nodup_cons.mp hnodup
      by_cases hname : property.name = name
      · have hall : rest.filter (·.name != name) = rest := by
          refine List.filter_eq_self.mpr fun other hmem => bne_iff_ne.mpr fun heq => hfresh ?_
          exact List.mem_map.mpr ⟨other, hmem, heq.trans hname.symm⟩
        simp [hname, hall]
      · simp [hname, ih hrest]

/-! ## What a value says -/

/-- A number stands for one style at most. -/
theorem RestartStyle.ofCard8?_eq_some {value : UInt8} {style : RestartStyle} :
    ofCard8? value = some style ↔ value = style.toCard8 := by
  constructor
  · intro h
    grind [ofCard8?, toCard8]
  · rintro rfl
    exact ofCard8?_toCard8 style

namespace PropertyValue

def text? : PropertyValue → Option String
  | .array8 value => some value
  | _ => none

/-- The number of a process, in decimal and perhaps between blanks. -/
def pid? (value : PropertyValue) : Option UInt32 :=
  value.text?.bind fun text =>
    (Text.unsigned? (UInt32.size - 1) (Text.trim text.toList)).map UInt32.ofNat

/-- A command: a program and its arguments. -/
def command? : PropertyValue → Option (List String)
  | .listOfArray8 (program :: arguments) => some (program :: arguments)
  | _ => none

def style? : PropertyValue → Option RestartStyle
  | .card8 value => RestartStyle.ofCard8? value
  | _ => none

theorem style?_eq_immediately {value : PropertyValue} :
    value.style? = some .immediately ↔ value = .card8 2 := by
  cases value with
  | card8 value => rw [style?, RestartStyle.ofCard8?_eq_some, card8.injEq]; rfl
  | _ => simp [style?]

end PropertyValue

namespace PropertyStore

variable (store : PropertyStore)

/-- Every question about a client is answered from the value under one name. -/
theorem text?_eq (name : String) :
    store.text? name = ((store.get? name).map Property.value).bind PropertyValue.text? := by
  rw [text?]
  cases (store.get? name).map Property.value with
  | none => rfl
  | some value => cases value <;> rfl

theorem texts?_eq (name : String) :
    store.texts? name = ((store.get? name).map Property.value).bind PropertyValue.command? := by
  rw [texts?]
  cases (store.get? name).map Property.value with
  | none => rfl
  | some value =>
      cases value with
      | listOfArray8 values => cases values <;> rfl
      | _ => rfl

theorem pid?_eq : store.pid? =
    ((store.get? Property.processIdName).map Property.value).bind PropertyValue.pid? := by
  rw [pid?, text?_eq]
  cases (store.get? Property.processIdName).map Property.value with
  | none => rfl
  | some value =>
      cases value with
      | array8 text =>
          show (Text.unsigned? (UInt32.size - 1) (Text.trim text.toList)).bind _ = Option.map _ _
          rw [Option.map_eq_bind]
          rfl
      | _ => rfl

theorem restartStyle?_eq : store.restartStyle? =
    ((store.get? Property.restartStyleName).map Property.value).bind PropertyValue.style? := by
  rw [restartStyle?]
  cases (store.get? Property.restartStyleName).map Property.value with
  | none => rfl
  | some value => cases value <;> rfl

theorem restartsAtOnce_iff : store.restartsAtOnce = true ↔
    (store.get? Property.restartStyleName).map Property.value = some (.card8 2) := by
  rw [restartsAtOnce, beq_iff_eq, restartStyle?_eq]
  cases (store.get? Property.restartStyleName).map Property.value with
  | none => simp
  | some value => rw [Option.bind_some, PropertyValue.style?_eq_immediately, Option.some.injEq]

end PropertyStore

end Xsmp
