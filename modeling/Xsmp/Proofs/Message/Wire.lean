import Xsmp.Control.Message
import Xsmp.Message.FromClient
import Xsmp.Message.FromManager
import Xsmp.Proofs.Json.RoundTrip

/-!
# Messages are read back

Every message has a plain JSON form from which it is read back (`LawfulWire`), so it is also
read back from the text it is written as, and that text has no line break in it. What a form
is made of, words, optional texts, lists and properties, is read back on its own first.
-/

namespace Xsmp

open Json (Plain maxDepth isControl)

variable {depth : Nat}

/-- A kind of message that is read back from its JSON form. -/
class LawfulWire (α : Type) [Wire α] : Prop where
  plain : ∀ message : α, Plain maxDepth (Wire.toJson message)
  ofJson?_toJson : ∀ message : α, Wire.ofJson? (Wire.toJson message) = some message

/-- **A message is read back from the text it is written as.** -/
theorem decode?_encode {α : Type} [Wire α] [LawfulWire α] (message : α) :
    Wire.decode? (Wire.encode message) = some message := by
  rw [Wire.decode?, Wire.encode, Json.parse?_render (LawfulWire.plain message)]
  exact LawfulWire.ofJson?_toJson message

theorem isControl_encode {α : Type} [Wire α] [LawfulWire α] (message : α) :
    ∀ c ∈ (Wire.encode message).toList, isControl c = false := by
  intro c hmem
  rw [Wire.encode, Json.render, String.toList_ofList] at hmem
  exact (LawfulWire.plain message).isControl_print c hmem

/-- A message is written in one line. -/
theorem not_mem_encode {α : Type} [Wire α] [LawfulWire α] (message : α) :
    '\n' ∉ (Wire.encode message).toList ∧ '\r' ∉ (Wire.encode message).toList := by
  have hplain := isControl_encode message
  constructor
  · exact fun hmem => absurd (hplain _ hmem) (by decide)
  · exact fun hmem => absurd (hplain _ hmem) (by decide)

/-- What is read back item by item is read back as a list. -/
theorem mapM_map_of_inverse {α β : Type} {read : β → Option α} {write : α → β}
    (h : ∀ a, read (write a) = some a) (items : List α) :
    (items.map write).mapM read = some items := by
  induction items with
  | nil => rfl
  | cons a items ih =>
      rw [List.map_cons, List.mapM_cons, h, ih]
      rfl

namespace Json

/-! ## Parts of messages -/

attribute [simp] Plain.null Plain.bool Plain.str

theorem list?_map {α : Type} {read : Json → Option α} {write : α → Json}
    (h : ∀ a, read (write a) = some a) (items : List α) :
    list? read (.arr (items.map write)) = some items :=
  mapM_map_of_inverse h items

theorem list?_ofTexts (texts : List String) : list? text? (ofTexts texts) = some texts := by
  have htext : ∀ s, text? (.str s) = some s := fun _ => rfl
  exact list?_map htext texts

theorem nullable_ofText? (s : Option String) : nullable text? (ofText? s) = some s := by
  cases s <;> rfl

theorem natural?_ofNat {largest n : Nat} (h : n ≤ largest) :
    natural? largest (.int n) = some n := by
  show (if n ≤ largest then some n else none) = some n
  rw [if_pos h]

@[simp] theorem plain_ofText? (s : Option String) : Plain depth (ofText? s) := by
  cases s with
  | none => exact .null
  | some s => exact .str s

theorem plain_ofNat? {n : Option Nat} (h : ∀ k, n = some k → k ≤ maxUnsigned) :
    Plain depth (ofNat? n) := by
  cases n with
  | none => exact .null
  | some k => exact .natural (h k rfl)

theorem plain_map {α : Type} {write : α → Json} (h : ∀ a, Plain depth (write a))
    (items : List α) : Plain (depth + 1) (.arr (items.map write)) := by
  refine .arr fun item hmem => ?_
  obtain ⟨a, _, rfl⟩ := List.mem_map.mp hmem
  exact h a

@[simp] theorem plain_ofTexts (texts : List String) : Plain (depth + 1) (ofTexts texts) :=
  plain_map .str texts

theorem plain_tagged {tag : String} {fields : List (String × Json)}
    (h : ∀ field ∈ fields, Plain depth field.2) : Plain (depth + 1) (tagged tag fields) := by
  refine .obj fun member hmem => ?_
  rcases List.mem_cons.mp hmem with rfl | hmem
  · exact .str tag
  · exact h member hmem

end Json

namespace SaveType

theorem ofJson?_toJson (type : SaveType) : ofJson? type.toJson = some type := by
  cases type <;> rfl

@[simp] theorem plain_toJson (type : SaveType) : Plain depth type.toJson := .str type.name

end SaveType

namespace InteractStyle

theorem ofJson?_toJson (style : InteractStyle) : ofJson? style.toJson = some style := by
  cases style <;> rfl

@[simp] theorem plain_toJson (style : InteractStyle) : Plain depth style.toJson := .str style.name

end InteractStyle

/-! ## Properties -/

theorem PropertyValue.ofJson?_toJson (inMessage : Bool) (value : PropertyValue) :
    ofJson? inMessage value.toJson = some value := by
  cases value with
  | card8 n =>
      have hle : n.toNat ≤ 255 := Nat.le_of_lt_succ n.toNat_lt
      show (Json.natural? 255 (.int n.toNat)).bind _ = _
      rw [Json.natural?_ofNat hle]
      exact congrArg (fun k => some (card8 k)) UInt8.ofNat_toNat
  | array8 s => rfl
  | listOfArray8 texts =>
      show (Json.list? Json.text? (Json.ofTexts texts)).bind _ = _
      rw [Json.list?_ofTexts]
      rfl

theorem PropertyValue.plain_toJson (value : PropertyValue) : Plain (depth + 2) value.toJson := by
  cases value with
  | card8 n =>
      have hle : n.toNat ≤ Json.maxUnsigned :=
        Nat.le_trans (Nat.le_of_lt n.toNat_lt) (by decide)
      refine .obj ?_
      simpa using Plain.natural hle
  | array8 s => exact .obj (by simp)
  | listOfArray8 texts => exact .obj (by simp)

namespace Property

theorem ofJson?_toJson (inMessage : Bool) (property : Property) :
    ofJson? inMessage property.toJson = some property := by
  have hvalue := PropertyValue.ofJson?_toJson inMessage property.value
  show (PropertyValue.ofJson? inMessage property.value.toJson).bind _ = _
  rw [hvalue]
  rfl

theorem plain_toJson (property : Property) : Plain (depth + 3) property.toJson := by
  refine .obj ?_
  simpa using property.value.plain_toJson

theorem list?_toJson (properties : List Property) :
    Json.list? (ofJson? true) (.arr (properties.map toJson)) = some properties :=
  Json.list?_map (ofJson?_toJson true) properties

/-- A property is also read back where it stands on its own. -/
theorem decode?_encode (property : Property) :
    decode? (Wire.encode property) = some property := by
  have hplain : Plain 3 property.toJson := property.plain_toJson
  have hdepth : 3 ≤ property.toJson.print.length := by
    simp only [toJson, Json.print, Json.quoted, List.length_append, List.length_cons]
    omega
  have hparse : Json.parseLenient? property.toJson.render = some property.toJson :=
    Json.parseLenient?_render hplain hdepth
  show (Json.parseLenient? property.toJson.render).bind (ofJson? false) = some property
  rw [hparse]
  exact ofJson?_toJson false property

end Property

instance : LawfulWire Property where
  plain property := property.plain_toJson
  ofJson?_toJson := Property.ofJson?_toJson true

/-! ## Messages -/

instance : LawfulWire ClientMessage where
  plain message := by
    cases message with
    | setProperties properties =>
        exact Json.plain_tagged (by simpa using Json.plain_map Property.plain_toJson properties)
    | _ => exact Json.plain_tagged (by simp)
  ofJson?_toJson message := by
    cases message with
    | registerClient previousId =>
        show (Json.nullable Json.text? (Json.ofText? previousId)).bind _ = _
        rw [Json.nullable_ofText?]
        rfl
    | interactRequest dialogType => cases dialogType <;> rfl
    | saveYourselfRequest saveType shutdown style fast isGlobal =>
        cases saveType <;> cases style <;> rfl
    | closeConnection reasons =>
        show (Json.list? Json.text? (Json.ofTexts reasons)).bind _ = _
        rw [Json.list?_ofTexts]
        rfl
    | setProperties properties =>
        show (Json.list? (Property.ofJson? true) (.arr (properties.map Property.toJson))).bind _ = _
        rw [Property.list?_toJson]
        rfl
    | deleteProperties names =>
        show (Json.list? Json.text? (Json.ofTexts names)).bind _ = _
        rw [Json.list?_ofTexts]
        rfl
    | _ => rfl

instance : LawfulWire ManagerMessage where
  plain message := by
    cases message with
    | propertiesReply properties =>
        exact Json.plain_tagged (by simpa using Json.plain_map Property.plain_toJson properties)
    | _ => exact Json.plain_tagged (by simp)
  ofJson?_toJson message := by
    cases message with
    | saveYourself saveType shutdown style fast => cases saveType <;> cases style <;> rfl
    | propertiesReply properties =>
        show (Json.list? (Property.ofJson? true) (.arr (properties.map Property.toJson))).bind _ = _
        rw [Property.list?_toJson]
        rfl
    | _ => rfl

/-! ## Control messages -/

instance : LawfulWire ControlRequest where
  plain request := Json.plain_tagged (by simp)
  ofJson?_toJson request := by
    cases request <;> rfl

namespace ClientSummary

theorem ofJson?_toJson (client : ClientSummary) : ofJson? client.toJson = some client := by
  obtain ⟨clientId, description, pid⟩ := client
  cases pid with
  | none => rfl
  | some pid =>
      have hle : pid.toNat ≤ UInt32.size - 1 := Nat.le_of_lt_succ pid.toNat_lt
      show (((Json.natural? (UInt32.size - 1) (.int pid.toNat)).map some).bind _ : Option _) = _
      rw [Json.natural?_ofNat hle]
      show some (ClientSummary.mk clientId description (some (UInt32.ofNat pid.toNat))) = _
      rw [UInt32.ofNat_toNat]

theorem plain_toJson (client : ClientSummary) : Plain (depth + 1) client.toJson := by
  have hpid : Plain depth (.ofNat? (client.pid.map UInt32.toNat)) := by
    refine Json.plain_ofNat? fun k hk => ?_
    obtain ⟨pid, _, rfl⟩ := Option.map_eq_some_iff.mp hk
    exact Nat.le_trans (Nat.le_of_lt pid.toNat_lt) (by decide)
  refine .obj ?_
  simpa using hpid

end ClientSummary

instance : LawfulWire ControlResponse where
  plain response := by
    cases response with
    | status name phase clients =>
        exact Json.plain_tagged (by simpa using Json.plain_map ClientSummary.plain_toJson clients)
    | _ => exact Json.plain_tagged (by simp)
  ofJson?_toJson response := by
    cases response with
    | status name phase clients =>
        have hclients : Json.list? ClientSummary.ofJson? (.arr (clients.map ClientSummary.toJson)) =
            some clients := Json.list?_map ClientSummary.ofJson?_toJson clients
        show (Json.nullable Json.text? (Json.ofText? name)).bind _ = _
        rw [Json.nullable_ofText?]
        show (Json.list? ClientSummary.ofJson? (.arr (clients.map ClientSummary.toJson))).bind _ = _
        rw [hclients]
        rfl
    | _ => rfl

end Xsmp
