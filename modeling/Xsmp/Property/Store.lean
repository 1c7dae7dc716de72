import Xsmp.Property.Basic
import Xsmp.Text.Blank
import Xsmp.Text.Numeral
import Xsmp.Text.Shell

/-!
# The property store

The properties of one client, each name at most once, in the order in which
they were last set. A property answers a question about the client only when
its value has the type that the protocol gives it.
-/

namespace Xsmp

structure PropertyStore where
  toList : List Property := []
  /-- No name is held twice. -/
  nodup : (toList.map Property.name).Nodup := by simp

namespace PropertyStore

variable (store : PropertyStore)

def empty : PropertyStore := {}

def names : List String := store.toList.map Property.name

def get? (name : String) : Option Property := store.toList.find? (·.name == name)

def erase (name : String) : PropertyStore where
  toList := store.toList.filter (·.name != name)
  nodup := store.nodup.sublist (List.filter_sublist.map _)

/-- Set a property. It replaces the one of the same name and stands at the end. -/
def set (property : Property) : PropertyStore where
  toList := (store.erase property.name).toList ++ [property]
  nodup := by
    have erased : property.name ∉ (store.erase property.name).toList.map Property.name := by
      simp [erase]
    rw [List.map_append, List.nodup_append]
    refine ⟨(store.erase property.name).nodup, by simp, ?_⟩
    intro a ha b hb
    simp only [List.map_cons, List.map_nil, List.mem_singleton] at hb
    intro h
    rw [h, hb] at ha
    exact erased ha

def contains (name : String) : Bool := (store.get? name).isSome

def text? (name : String) : Option String :=
  match (store.get? name).map Property.value with
  | some (.array8 value) => some value
  | _ => none

/-- The list of at least one text set under a name. -/
def texts? (name : String) : Option (List String) :=
  match (store.get? name).map Property.value with
  | some (.listOfArray8 []) => none
  | some (.listOfArray8 values) => some values
  | _ => none

def program? : Option String := store.text? Property.programName

/-- The process number, if the text set for it is a numeral. -/
def pid? : Option UInt32 := do
  let value ← store.text? Property.processIdName
  return .ofNat (← Text.unsigned? (UInt32.size - 1) (Text.trim value.toList))

def desktopFile? : Option String := store.text? Property.desktopFileName

/-- The program and arguments that start the client again. -/
def restartArguments? : Option (List String) := store.texts? Property.restartCommandName

/-- The restart command as a line for the shell. -/
def restartCommand? : Option String := store.restartArguments?.map Text.quoteCommand

/-- The discard command as a line for the shell. -/
def discardCommand? : Option String :=
  (store.texts? Property.discardCommandName).map Text.quoteCommand

def restartStyle? : Option RestartStyle :=
  match (store.get? Property.restartStyleName).map Property.value with
  | some (.card8 value) => RestartStyle.ofCard8? value
  | _ => none

/-- Whether the client wants to be started again as soon as it exits. -/
def restartsAtOnce : Bool := store.restartStyle? == some .immediately

@[simp] theorem toList_erase (name : String) :
    (store.erase name).toList = store.toList.filter (·.name != name) := rfl

@[simp] theorem toList_set (property : Property) :
    (store.set property).toList =
      store.toList.filter (·.name != property.name) ++ [property] := rfl

theorem get?_erase_self (name : String) : (store.erase name).get? name = none := by
  simp [get?]

theorem get?_set_self (property : Property) :
    (store.set property).get? property.name = some property := by
  have absent : (store.erase property.name).get? property.name = none :=
    store.get?_erase_self property.name
  simp only [get?, toList_erase] at absent
  simp [get?, toList_set, List.find?_append, absent]

end PropertyStore

end Xsmp
