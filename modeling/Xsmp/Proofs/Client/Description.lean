import Xsmp.Proofs.Client.Life
import Xsmp.Proofs.Property.History

/-!
# What is known of a client

A client describes itself by its properties, and the manager reads from them what it shows to the
user and how it starts the client again. All of it follows from the history of the client alone:
the changes of its properties that it has asked for (`changes`), and the identifier that it was
registered under last (`assignedId`). The label is made anew only when a message is about the
name of the program or when the client is registered; that is often enough for it never to be out
of date (`described`).
-/

namespace Xsmp

/-- What a message does to the properties of its client. -/
def ClientMessage.changes : ClientMessage → List PropertyChange
  | .setProperties properties => properties.map .set
  | .deleteProperties names => names.map .delete
  | _ => []

namespace Participant

variable {participant : Participant} {input : Input} {inputs : List Input}

/-! ## What inputs have to do with properties -/

/-- What the client says. -/
def Input.message? : Input → Option ClientMessage
  | .called _ => none
  | .received message => some message

/-- The identifier that the client is registered under by an input. -/
def Input.assigned? : Input → Option String
  | .called (.registered clientId _) => some clientId
  | _ => none

/-- What a client has said. -/
def saidIn (inputs : List Input) : List ClientMessage := inputs.filterMap Input.message?

/-- What a client has done to its properties. -/
def changes (inputs : List Input) : List PropertyChange :=
  (saidIn inputs).flatMap ClientMessage.changes

/-- The identifier that the client was registered under last. -/
def assignedId (inputs : List Input) : Option String := inputs.reverse.findSome? Input.assigned?

/-- The label is that of the present program and identifier. -/
def Labelled (participant : Participant) : Prop :=
  participant.label =
    labelOf participant.key participant.properties.program? participant.clientId

/-- Changes that are not about the program leave the name of the program as it is. -/
theorem program?_foldl_of_untouched {changes : List PropertyChange}
    (h : ∀ change ∈ changes, change.name ≠ Property.programName) (store : PropertyStore) :
    (changes.foldl PropertyChange.apply store).program? = store.program? := by
  rw [PropertyStore.program?, PropertyStore.text?_eq, PropertyStore.program?,
    PropertyStore.text?_eq, PropertyChange.get?_foldl_of_untouched h]

/-- What one input does to what is known of a client. -/
structure Learns (participant : Participant) (input : Input) (next : Participant) : Prop where
  key : next.key = participant.key
  properties : next.properties =
    (input.message?.elim [] ClientMessage.changes).foldl PropertyChange.apply
      participant.properties
  clientId : next.clientId = input.assigned?.or participant.clientId
  label : participant.Labelled → next.Labelled

/-- An input that is about neither the identifier nor the properties. -/
theorem learns_saves (saves : SaveQueue)
    (hmessage : input.message?.elim [] ClientMessage.changes = [])
    (hassigned : input.assigned? = none) :
    Learns participant input { participant with saves } := by
  refine ⟨rfl, ?_, ?_, id⟩
  · rw [hmessage]
    rfl
  · rw [hassigned]
    rfl

theorem learns_called (participant : Participant) (call : ClientCall) :
    Learns participant (.called call) (participant.called call).participant := by
  cases call with
  | registered clientId resumed =>
      cases resumed with
      | true => exact ⟨rfl, rfl, rfl, fun _ => rfl⟩
      | false => exact ⟨rfl, rfl, rfl, fun _ => rfl⟩
  | _ => exact learns_saves _ rfl rfl

/-- A message about properties makes the label anew if it is about the program. -/
theorem learns_changed (participant : Participant) (changes : List PropertyChange)
    {changed : Participant} {touched : Bool}
    (hchanged : changed = { participant with
      properties := changes.foldl PropertyChange.apply participant.properties })
    (hmessage : input.message?.elim [] ClientMessage.changes = changes)
    (hassigned : input.assigned? = none)
    (htouched : touched = false → ∀ change ∈ changes, change.name ≠ Property.programName) :
    Learns participant input (if touched then changed.relabel else changed) := by
  subst hchanged hmessage
  cases touched with
  | true =>
      refine ⟨rfl, rfl, ?_, fun _ => rfl⟩
      rw [hassigned]
      rfl
  | false =>
      refine ⟨rfl, rfl, ?_, fun hlabel => hlabel.trans ?_⟩
      · rw [hassigned]
        rfl
      · exact congrArg (labelOf participant.key · participant.clientId)
          (program?_foldl_of_untouched (htouched rfl) participant.properties).symm

theorem learns_setProperties (participant : Participant) (properties : List Property) :
    Learns participant (.received (.setProperties properties))
      (participant.setProperties properties) := by
  refine learns_changed participant (properties.map .set) ?_ rfl rfl fun hother => ?_
  · rw [List.foldl_map]
    rfl
  · -- a list that leaves the label alone names the program nowhere
    intro change hmem hname
    obtain ⟨property, hproperty, rfl⟩ := List.mem_map.mp hmem
    exact List.any_eq_false.mp hother property hproperty (beq_iff_eq.mpr hname)

theorem learns_deleteProperties (participant : Participant) (names : List String) :
    Learns participant (.received (.deleteProperties names))
      (participant.deleteProperties names) := by
  refine learns_changed participant (names.map .delete) ?_ rfl rfl fun hother => ?_
  · rw [List.foldl_map]
    rfl
  · intro change hmem hname
    obtain ⟨name, hlisted, rfl⟩ := List.mem_map.mp hmem
    exact Bool.eq_false_iff.mp hother (List.contains_iff_mem.mpr (hname ▸ hlisted))

/-- **What every input does to what is known of a client.** -/
theorem learns_react (participant : Participant) (input : Input) :
    Learns participant input (participant.react input).participant := by
  cases input with
  | called call => exact learns_called participant call
  | received message =>
      cases message with
      | setProperties properties => exact learns_setProperties participant properties
      | deleteProperties names => exact learns_deleteProperties participant names
      | saveYourselfRequest saveType shutdown style fast isGlobal =>
          cases shutdown <;> cases isGlobal <;> exact learns_saves _ rfl rfl
      | saveYourselfPhase2Request =>
          simp only [react, received]
          split <;> exact learns_saves participant.saves rfl rfl
      | saveYourselfDone success =>
          simp only [react, received, saveDone]
          split <;> exact learns_saves _ rfl rfl
      | _ => exact learns_saves _ rfl rfl

/-! ## After any inputs -/

theorem key_after (participant : Participant) (inputs : List Input) :
    (participant.after inputs).key = participant.key := by
  induction inputs generalizing participant with
  | nil => rfl
  | cons input inputs ih => exact (ih _).trans (learns_react participant input).key

theorem saidIn_append (inputs more : List Input) :
    saidIn (inputs ++ more) = saidIn inputs ++ saidIn more := List.filterMap_append

theorem saidIn_snoc (inputs : List Input) (input : Input) :
    saidIn (inputs ++ [input]) = saidIn inputs ++ input.message?.toList := by
  rw [saidIn_append]
  cases input <;> rfl

theorem changes_snoc (inputs : List Input) (input : Input) :
    changes (inputs ++ [input]) =
      changes inputs ++ input.message?.elim [] ClientMessage.changes := by
  rw [changes, saidIn_snoc, List.flatMap_append]
  cases input.message? <;> simp [changes]

theorem assignedId_snoc (inputs : List Input) (input : Input) :
    assignedId (inputs ++ [input]) = input.assigned?.or (assignedId inputs) := by
  rw [assignedId, List.reverse_append, List.reverse_singleton, List.singleton_append,
    List.findSome?_cons]
  cases input.assigned? <;> rfl

/-- A participant knows of its client what the client has said and been given. -/
structure Knows (inputs : List Input) (key : ClientKey) (participant : Participant) : Prop where
  key : participant.key = key
  properties : participant.properties = (changes inputs).foldl PropertyChange.apply .empty
  clientId : participant.clientId = assignedId inputs
  label : participant.Labelled

theorem knows_after (key : ClientKey) (inputs : List Input) :
    Knows inputs key ((new key).after inputs) := by
  induction inputs using List.reverseRecOn with
  | nil => exact ⟨rfl, rfl, rfl, rfl⟩
  | append_singleton inputs input ih =>
      have hlearns := learns_react ((new key).after inputs) input
      rw [after_snoc]
      refine ⟨hlearns.key.trans ih.key, ?_, ?_, hlearns.label ih.label⟩
      · rw [hlearns.properties, ih.properties, changes_snoc, List.foldl_append]
      · rw [hlearns.clientId, ih.clientId, assignedId_snoc]

/-- Under each name there is what the client has last set there. -/
theorem value_after (key : ClientKey) (inputs : List Input) (name : String) :
    (((new key).after inputs).properties.get? name).map Property.value =
      PropertyChange.lastValue name (changes inputs) := by
  rw [(knows_after key inputs).properties, PropertyChange.value_foldl]

theorem restartsAtOnce_after (key : ClientKey) (inputs : List Input) :
    ((new key).after inputs).properties.restartsAtOnce = true ↔
      PropertyChange.lastValue Property.restartStyleName (changes inputs) = some (.card8 2) := by
  rw [PropertyStore.restartsAtOnce_iff, value_after]

/-- What is known of a client that has lived through some inputs, told from its history alone. -/
structure Described (key : ClientKey) (inputs : List Input) (participant : Participant) :
    Prop where
  /-- It is told its properties when it asks for them, and then those that stand. -/
  replied : ∀ input properties, .propertiesReply properties ∈ (participant.react input).sent ↔
    input = .received .getProperties
      ∧ properties = PropertyChange.standing (changes inputs)
  /-- No name stands twice. -/
  once : ((PropertyChange.standing (changes inputs)).map Property.name).Nodup
  /-- What stands is what was set and neither set again nor deleted since. -/
  stands : ∀ property, property ∈ PropertyChange.standing (changes inputs) ↔
    ∃ before later, changes inputs = before ++ .set property :: later
      ∧ ∀ change ∈ later, change.name ≠ property.name
  /-- What stands comes in the order in which it was set. -/
  ordered : ∀ before first between second later,
    changes inputs = before ++ .set first :: between ++ .set second :: later →
    (∀ change ∈ between ++ .set second :: later, change.name ≠ first.name) →
    (∀ change ∈ later, change.name ≠ second.name) →
    [first, second].Sublist (PropertyChange.standing (changes inputs))
  /-- Nothing of a name is left when the first property of that name is taken away. -/
  erased : ∀ name, (participant.properties.erase name).toList =
    participant.properties.toList.eraseP (·.name == name)
  program : participant.properties.program? =
    (PropertyChange.lastValue Property.programName (changes inputs)).bind PropertyValue.text?
  pid : participant.properties.pid? =
    (PropertyChange.lastValue Property.processIdName (changes inputs)).bind PropertyValue.pid?
  desktopFile : participant.properties.desktopFile? =
    (PropertyChange.lastValue Property.desktopFileName (changes inputs)).bind
      PropertyValue.text?
  restartArguments : participant.properties.restartArguments? =
    (PropertyChange.lastValue Property.restartCommandName (changes inputs)).bind
      PropertyValue.command?
  restartCommand : participant.properties.restartCommand? =
    ((PropertyChange.lastValue Property.restartCommandName (changes inputs)).bind
      PropertyValue.command?).map Text.quoteCommand
  discardCommand : participant.properties.discardCommand? =
    ((PropertyChange.lastValue Property.discardCommandName (changes inputs)).bind
      PropertyValue.command?).map Text.quoteCommand
  restartStyle : participant.properties.restartStyle? =
    (PropertyChange.lastValue Property.restartStyleName (changes inputs)).bind
      PropertyValue.style?
  restartsAtOnce : participant.properties.restartsAtOnce = true ↔
    PropertyChange.lastValue Property.restartStyleName (changes inputs) = some (.card8 2)
  /-- The label is that of the present program and the present identifier. -/
  label : participant.label = "#" ++ toString key ++ " ["
    ++ ((PropertyChange.lastValue Property.programName (changes inputs)).bind
        PropertyValue.text?).getD "?"
    ++ " " ++ (assignedId inputs).getD "?" ++ "]"

theorem propertiesReply_ne_saveMessage (properties : List Property) (type : SaveType) :
    ManagerMessage.propertiesReply properties ≠ saveMessage type := by
  cases type <;> simp [saveMessage]

/-- Nothing but the question for them is answered with properties. -/
theorem mem_sent_propertiesReply {properties : List Property} :
    .propertiesReply properties ∈ (participant.react input).sent ↔
      input = .received .getProperties ∧ properties = participant.properties.toList := by
  have hsaves (types : Option SaveType) :
      .propertiesReply properties ∉ types.toList.map saveMessage := by
    intro hmem
    obtain ⟨type, -, heq⟩ := List.mem_map.mp hmem
    exact propertiesReply_ne_saveMessage properties type heq.symm
  cases input with
  | called call =>
      cases call with
      | registered clientId resumed => cases resumed <;> simp [react, called, requestSave, hsaves]
      | _ => simp [react, called, requestSave, hsaves]
  | received message =>
      cases message with
      | saveYourselfRequest saveType shutdown style fast isGlobal =>
          cases shutdown <;> cases isGlobal <;> simp [react, received, requestSave, hsaves]
      | saveYourselfPhase2Request =>
          simp only [react, received]
          split <;> simp
      | saveYourselfDone success =>
          simp only [react, received, saveDone]
          split <;> simp [hsaves]
      | _ => simp [react, received]

/-- **A client is described by its history.** -/
theorem described (key : ClientKey) (inputs : List Input) :
    Described key inputs ((new key).after inputs) := by
  have hknows := knows_after key inputs
  have hlist : ((new key).after inputs).properties.toList =
      PropertyChange.standing (changes inputs) := by
    rw [hknows.properties, PropertyChange.toList_foldl]
  have htext (name : String) : ((new key).after inputs).properties.text? name =
      (PropertyChange.lastValue name (changes inputs)).bind PropertyValue.text? := by
    rw [PropertyStore.text?_eq, value_after]
  have htexts (name : String) : ((new key).after inputs).properties.texts? name =
      (PropertyChange.lastValue name (changes inputs)).bind PropertyValue.command? := by
    rw [PropertyStore.texts?_eq, value_after]
  constructor
  case replied =>
    intro input properties
    rw [mem_sent_propertiesReply, hlist]
  case once =>
    rw [← hlist]
    exact ((new key).after inputs).properties.nodup
  case stands => exact fun _ => PropertyChange.mem_standing
  case ordered =>
    intro before first between second later hchanges hfirst hsecond
    rw [hchanges]
    exact PropertyChange.standing_ordered hfirst hsecond
  case erased => exact PropertyStore.toList_erase_eq_eraseP _
  case program => exact htext _
  case pid => rw [PropertyStore.pid?_eq, value_after]
  case desktopFile => exact htext _
  case restartArguments => exact htexts _
  case restartCommand => exact congrArg (Option.map Text.quoteCommand) (htexts _)
  case discardCommand => exact congrArg (Option.map Text.quoteCommand) (htexts _)
  case restartStyle => rw [PropertyStore.restartStyle?_eq, value_after]
  case restartsAtOnce => exact restartsAtOnce_after key inputs
  case label =>
    rw [hknows.label, hknows.key, hknows.clientId, PropertyStore.program?, htext]
    rfl

end Participant

end Xsmp
