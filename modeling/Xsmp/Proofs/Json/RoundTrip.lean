import Xsmp.Proofs.Json.Text

/-!
# Printed values are read back

A value without anything unreadable, whose whole numbers fit 64 bits and that has no other
numbers, is read back as it was from the text it is printed as, as long as lists and
objects nest no deeper than is allowed. The proof goes by the value; what follows it in
the text may be anything that can follow a value there.
-/

namespace Xsmp.Json

variable {fuel depth : Nat} {cs rest : List Char}

/-! ## Numbers -/

theorem isDigit_of_mem_toDigits {n : Nat} {c : Char} (h : c ∈ Nat.toDigits 10 n) :
    c.isDigit = true :=
  Nat.isDigit_of_mem_toDigits (by decide) (by decide) h

/-- The digits of a number that is not zero do not begin with a zero. -/
theorem head?_toDigits {n : Nat} (h : 0 < n) : (Nat.toDigits 10 n).head? ≠ some '0' := by
  induction n using Nat.strongRecOn with
  | ind n ih =>
      by_cases hlt : n < 10
      · have hdigit : ∀ n < 10, 0 < n → Nat.digitChar n ≠ '0' := by decide
        rw [Nat.toDigits_of_lt_base hlt]
        simpa using hdigit n hlt h
      · have hle : 10 ≤ n := Nat.le_of_not_lt hlt
        have hrest := ih (n / 10) (by omega) (by omega)
        obtain ⟨d, ds, hdigits⟩ := List.exists_cons_of_ne_nil
          (Nat.toDigits_ne_nil : Nat.toDigits 10 (n / 10) ≠ [])
        rw [Nat.toDigits_of_base_le (by decide) hle, hdigits]
        rw [hdigits] at hrest
        exact hrest

/-- What may follow a value: nothing, or what separates and ends the parts of a list or an
object. -/
def Follows (rest : List Char) : Prop :=
  ∀ c cs, rest = c :: cs → c = ',' ∨ c = ']' ∨ c = '}'

theorem Follows.takeWhile (h : Follows rest) : rest.takeWhile Char.isDigit = [] := by
  cases rest with
  | nil => rfl
  | cons c cs =>
      rcases h c cs rfl with rfl | rfl | rfl <;> rfl

theorem Follows.dropWhile (h : Follows rest) : rest.dropWhile Char.isDigit = rest := by
  cases rest with
  | nil => rfl
  | cons c cs =>
      rcases h c cs rfl with rfl | rfl | rfl <;> rfl

theorem readWhole?_toDigits (n : Nat) (h : Follows rest) :
    readWhole? (Nat.toDigits 10 n ++ rest) = some (Nat.toDigits 10 n, rest) := by
  cases hdigits : Nat.toDigits 10 n with
  | nil => exact absurd hdigits Nat.toDigits_ne_nil
  | cons d ds =>
      have hall : ∀ c ∈ d :: ds, c.isDigit = true := fun c hc =>
        isDigit_of_mem_toDigits (hdigits ▸ hc)
      by_cases hzero : d = '0'
      · -- a number that begins with a zero is zero
        have hn : n = 0 := by
          rcases Nat.eq_zero_or_pos n with hn | hpos
          · exact hn
          · refine absurd ?_ (head?_toDigits hpos)
            rw [hdigits, hzero]
            rfl
        subst hn
        have hds : ds = [] := by
          have hone : Nat.toDigits 10 0 = ['0'] := rfl
          rw [hone] at hdigits
          exact (List.cons.inj hdigits).2.symm
        rw [hzero, hds]
        rfl
      · have htail : ∀ c ∈ ds, c.isDigit = true := fun c hc => hall c (List.mem_cons_of_mem d hc)
        have hd : d.isDigit = true := hall d List.mem_cons_self
        rw [List.cons_append, readWhole?, if_neg hzero, if_pos hd,
          List.takeWhile_append_of_pos htail, List.dropWhile_append_of_pos htail, h.takeWhile,
          h.dropWhile, List.append_nil]

theorem readFraction?_of_follows (h : Follows rest) :
    readFraction? rest = some (false, [], rest) := by
  cases rest with
  | nil => rfl
  | cons c cs =>
      rcases h c cs rfl with rfl | rfl | rfl <;> rfl

theorem readExponent?_of_follows (h : Follows rest) :
    readExponent? rest = some (false, false, [], rest) := by
  cases rest with
  | nil => rfl
  | cons c cs =>
      rcases h c cs rfl with rfl | rfl | rfl <;> rfl

theorem readMagnitude?_toDigits {n : Nat} {negative : Bool} {value : Int} (h : Follows rest)
    (hvalue : whole? negative (Nat.toDigits 10 n) = some value) :
    readMagnitude? negative (Nat.toDigits 10 n ++ rest) = some (.int value, rest) := by
  rw [readMagnitude?, readWhole?_toDigits n h]
  simp only [Option.bind_eq_bind, Option.bind_some, readFraction?_of_follows h,
    readExponent?_of_follows h, Bool.or_false, Bool.false_eq_true, if_false, hvalue]
  rfl

/-- The number at the front is read whatever follows it, and first comes its sign. -/
theorem readNumber?_toDigits {n : Nat} {value : Int} (h : Follows rest)
    (hvalue : whole? false (Nat.toDigits 10 n) = some value) :
    readNumber? (Nat.toDigits 10 n ++ rest) = some (.int value, rest) := by
  have hread := readMagnitude?_toDigits h hvalue
  cases hdigits : Nat.toDigits 10 n with
  | nil => exact absurd hdigits Nat.toDigits_ne_nil
  | cons d ds =>
      have hd : d.isDigit = true := isDigit_of_mem_toDigits (hdigits ▸ List.mem_cons_self)
      have hsign : d ≠ '-' := by
        rintro rfl
        exact absurd hd (by decide)
      rw [hdigits] at hread
      rw [List.cons_append, readNumber?]
      · exact hread
      · intro cs heq
        exact hsign (List.cons.inj heq).1

theorem bounded?_toDigits {largest n : Nat} (h : n ≤ largest) :
    Text.bounded? largest (Nat.toDigits 10 n) = some n := by
  rw [Text.bounded?_eq, Nat.ofDigitChars_ten_toDigits]
  simp [Option.filter, h]

/-! ## Values -/

/-- A value that can be printed and read back, where lists and objects nest at most `depth`
deep. -/
inductive Plain : Nat → Json → Prop
  | null {depth : Nat} : Plain depth .null
  | bool {depth : Nat} (b : Bool) : Plain depth (.bool b)
  | natural {depth n : Nat} (h : n ≤ maxUnsigned) : Plain depth (.int (.ofNat n))
  | negative {depth n : Nat} (h : n + 1 ≤ 0x8000000000000000) : Plain depth (.int (.negSucc n))
  | str {depth : Nat} (s : String) : Plain depth (.str s)
  | arr {depth : Nat} {items : List Json} (h : ∀ item ∈ items, Plain depth item) :
      Plain (depth + 1) (.arr items)
  | obj {depth : Nat} {members : List (String × Json)}
      (h : ∀ member ∈ members, Plain depth member.2) : Plain (depth + 1) (.obj members)

theorem skipSpace_of_not {c : Char} (h : isSpace c = false) (cs : List Char) :
    skipSpace (c :: cs) = c :: cs := by
  rw [skipSpace, List.dropWhile_cons_of_neg]
  simp [h]

/-- A value is read back whatever follows it. -/
def ReadsBack (depth : Nat) (json : Json) : Prop :=
  ∀ fuel rest, json.print.length ≤ fuel → Follows rest →
    readValue fuel depth (json.print ++ rest) = some (json, rest)

theorem readsBack_null : ReadsBack depth .null := by
  intro fuel rest hfuel hrest
  cases fuel with
  | zero => exact absurd hfuel (by decide)
  | succ fuel => rfl

theorem readsBack_bool (b : Bool) : ReadsBack depth (.bool b) := by
  intro fuel rest hfuel hrest
  cases fuel with
  | zero => cases b <;> exact absurd hfuel (by decide)
  | succ fuel => cases b <;> rfl

theorem quoted_eq_cons (s : String) : quoted s = '"' :: (quoted s).tail := rfl

theorem readsBack_str (s : String) : ReadsBack depth (.str s) := by
  intro fuel rest hfuel hrest
  cases fuel with
  | zero => exact absurd hfuel (by simp [print, quoted])
  | succ fuel =>
      rw [print, quoted_eq_cons, List.cons_append, readValue, skipSpace_of_not (c := '"') rfl]
      simp only [readText_quoted]
      rfl

/-- What begins like a number is read as one. -/
theorem readValue_number {c : Char} (h : c.isDigit = true ∨ c = '-') :
    readValue (fuel + 1) depth (c :: cs) = readNumber? (c :: cs) := by
  have hspace : isSpace c = false := by
    rw [← Bool.not_eq_true]
    intro hspace
    simp only [isSpace, Bool.or_eq_true, beq_iff_eq] at hspace
    rcases hspace with ((rfl | rfl) | rfl) | rfl <;> revert h <;> decide
  rw [readValue, skipSpace_of_not hspace]
  split
  all_goals first
    | rfl
    | next heq =>
        obtain ⟨rfl, _⟩ := List.cons.inj heq
        exact absurd h (by decide)

theorem head?_isDigit (n : Nat) :
    ∃ d ds, Nat.toDigits 10 n = d :: ds ∧ d.isDigit = true := by
  obtain ⟨d, ds, hdigits⟩ :=
    List.exists_cons_of_ne_nil (Nat.toDigits_ne_nil : Nat.toDigits 10 n ≠ [])
  exact ⟨d, ds, hdigits, isDigit_of_mem_toDigits (hdigits ▸ List.mem_cons_self)⟩

theorem readsBack_natural {n : Nat} (h : n ≤ maxUnsigned) : ReadsBack depth (.int (.ofNat n)) := by
  intro fuel rest hfuel hrest
  have hvalue : whole? false (Nat.toDigits 10 n) = some (Int.ofNat n) := by
    rw [whole?, bounded?_toDigits h]
    rfl
  have hnumber := readNumber?_toDigits hrest hvalue
  obtain ⟨d, ds, hdigits, hd⟩ := head?_isDigit n
  have hprint : Json.print (.int (.ofNat n)) = Nat.toDigits 10 n := rfl
  rw [hprint, hdigits] at hfuel ⊢
  rw [hdigits] at hnumber
  cases fuel with
  | zero => exact absurd hfuel (by simp)
  | succ fuel =>
      rw [List.cons_append, readValue_number (.inl hd)]
      exact hnumber

theorem readsBack_negative {n : Nat} (h : n + 1 ≤ 0x8000000000000000) :
    ReadsBack depth (.int (.negSucc n)) := by
  intro fuel rest hfuel hrest
  have hvalue : whole? true (Nat.toDigits 10 (n + 1)) = some (Int.negSucc n) := by
    rw [whole?, bounded?_toDigits h]
    simp [Option.filter, Int.negSucc_eq]
  cases fuel with
  | zero => exact absurd hfuel (by simp [print])
  | succ fuel =>
      show readValue (fuel + 1) depth ('-' :: (Nat.toDigits 10 (n + 1) ++ rest)) = _
      rw [readValue_number (.inr rfl)]
      exact readMagnitude?_toDigits hrest hvalue

/-! ## Lists and objects -/

theorem follows_cons {c : Char} (h : c = ',' ∨ c = ']' ∨ c = '}') (cs : List Char) :
    Follows (c :: cs) := by
  intro d ds heq
  exact (List.cons.inj heq).1 ▸ h

/-- A value begins with no white space, and with nothing that ends a list. -/
theorem Plain.print_eq_cons {json : Json} (h : Plain depth json) :
    ∃ c cs, json.print = c :: cs ∧ isSpace c = false ∧ c ≠ ']' := by
  cases h with
  | null => exact ⟨_, _, rfl, by decide, by decide⟩
  | bool b => cases b <;> exact ⟨_, _, rfl, by decide, by decide⟩
  | @natural _ n _ =>
      obtain ⟨d, ds, hdigits, hd⟩ := head?_isDigit n
      refine ⟨d, ds, hdigits, ?_, ?_⟩
      · rw [← Bool.not_eq_true]
        intro hspace
        simp only [isSpace, Bool.or_eq_true, beq_iff_eq] at hspace
        rcases hspace with ((rfl | rfl) | rfl) | rfl <;> exact absurd hd (by decide)
      · rintro rfl
        exact absurd hd (by decide)
  | negative _ => exact ⟨_, _, rfl, by decide, by decide⟩
  | str s => exact ⟨_, _, rfl, by decide, by decide⟩
  | @arr _ items _ => cases items <;> exact ⟨_, _, rfl, by decide, by decide⟩
  | @obj _ members _ => cases members <;> exact ⟨_, _, rfl, by decide, by decide⟩

/-- The items of a list are read back, one after the other. -/
theorem readItems_print {item : Json} {items : List Json} (hitem : ReadsBack depth item)
    (hitems : ∀ item ∈ items, ReadsBack depth item) (fuel : Nat)
    (hfuel : item.print.length + (printItems items).length ≤ fuel) (before : List Json)
    (rest : List Char) :
    readItems fuel depth (item.print ++ (printItems items ++ rest)) before =
      some (.arr (before.reverse ++ item :: items), rest) := by
  induction items generalizing item before fuel with
  | nil =>
      rw [printItems] at hfuel ⊢
      cases fuel with
      | zero => exact absurd hfuel (by simp)
      | succ fuel =>
          have hread := hitem fuel (']' :: rest) (by simpa using hfuel)
            (follows_cons (by simp) rest)
          rw [readItems, List.singleton_append, hread]
          simp [skipSpace_of_not (c := ']') rfl]
  | cons next items ih =>
      rw [printItems] at hfuel ⊢
      cases fuel with
      | zero => exact absurd hfuel (by simp)
      | succ fuel =>
          simp only [List.cons_append, List.length_append, List.length_cons] at hfuel
          have hread := hitem fuel (',' :: (next.print ++ (printItems items ++ rest))) (by omega)
            (follows_cons (by simp) _)
          have hrest := ih (hitems next List.mem_cons_self)
            (fun item hmem => hitems item (List.mem_cons_of_mem next hmem)) fuel (by omega)
            (item :: before)
          rw [readItems, List.cons_append, List.cons_append, List.append_assoc, hread]
          simp [skipSpace_of_not (c := ',') rfl, hrest]

/-- A list that does not end at once. -/
theorem readValue_list {c : Char} (hspace : isSpace c = false) (hend : c ≠ ']') :
    readValue (fuel + 1) (depth + 1) ('[' :: c :: cs) = readItems fuel depth (c :: cs) [] := by
  have hdepth : depth + 1 ≠ 0 := Nat.add_one_ne_zero depth
  rw [readValue, skipSpace_of_not (c := '[') rfl]
  simp only [hdepth, if_false, skipSpace_of_not hspace]
  split
  · next heq => exact absurd (List.cons.inj heq).1 hend
  · rfl

theorem readsBack_arr {items : List Json} (hplain : ∀ item ∈ items, Plain depth item)
    (h : ∀ item ∈ items, ReadsBack depth item) : ReadsBack (depth + 1) (.arr items) := by
  intro fuel rest hfuel hrest
  cases fuel with
  | zero => cases items <;> exact absurd hfuel (by simp [print])
  | succ fuel =>
      cases items with
      | nil => rfl
      | cons item items =>
          rw [print] at hfuel ⊢
          simp only [List.cons_append, List.length_append, List.length_cons] at hfuel
          have hread := readItems_print (h item List.mem_cons_self)
            (fun item hmem => h item (List.mem_cons_of_mem _ hmem)) fuel (by omega) [] rest
          obtain ⟨c, cs, hprint, hspace, hend⟩ := (hplain item List.mem_cons_self).print_eq_cons
          rw [hprint] at hread ⊢
          simp only [List.cons_append, List.append_assoc] at hread ⊢
          rw [readValue_list hspace hend]
          exact hread

/-- A member of an object, and what follows it. -/
theorem readMembers_named (name : String) {value : Json} (before : List (String × Json))
    (h : readValue fuel depth cs = some (value, rest)) :
    readMembers (fuel + 1) depth (quoted name ++ ':' :: cs) before true =
      match skipSpace rest with
      | ',' :: rest => readMembers fuel depth rest ((name, value) :: before) true
      | '}' :: rest => some (.obj ((name, value) :: before).reverse, rest)
      | _ => none := by
  rw [quoted_eq_cons, List.cons_append, readMembers, skipSpace_of_not (c := '"') rfl]
  simp only [readText_quoted, skipSpace_of_not (c := ':') rfl]
  rewrite [h]
  rfl

/-- The members of an object are read back, one after the other. -/
theorem readMembers_print {value : Json} {members : List (String × Json)} (name : String)
    (hvalue : ReadsBack depth value) (hmembers : ∀ member ∈ members, ReadsBack depth member.2)
    (fuel : Nat) (hfuel : value.print.length + (printMembers members).length ≤ fuel)
    (before : List (String × Json)) (rest : List Char) :
    readMembers fuel depth (quoted name ++ ':' :: (value.print ++ (printMembers members ++ rest)))
      before true = some (.obj (before.reverse ++ (name, value) :: members), rest) := by
  induction members generalizing name value before fuel with
  | nil =>
      rw [printMembers] at hfuel ⊢
      cases fuel with
      | zero => exact absurd hfuel (by simp)
      | succ fuel =>
          have hread := hvalue fuel ('}' :: rest) (by simpa using hfuel)
            (follows_cons (by simp) rest)
          rw [List.singleton_append, readMembers_named name before hread]
          simp [skipSpace_of_not (c := '}') rfl]
  | cons next members ih =>
      obtain ⟨nextName, nextValue⟩ := next
      rw [printMembers] at hfuel ⊢
      cases fuel with
      | zero => exact absurd hfuel (by simp)
      | succ fuel =>
          simp only [List.cons_append, List.length_append, List.length_cons] at hfuel
          have hread := hvalue fuel
            (',' :: (quoted nextName ++ ':' :: (nextValue.print ++ (printMembers members ++ rest))))
            (by omega) (follows_cons (by simp) _)
          have hnext : ReadsBack depth nextValue := hmembers _ List.mem_cons_self
          have hrest := ih nextName hnext
            (fun member hmem => hmembers member (List.mem_cons_of_mem _ hmem)) fuel (by omega)
            ((name, value) :: before)
          simp only [List.cons_append, List.append_assoc]
          rw [readMembers_named name before hread, skipSpace_of_not (c := ',') rfl]
          simpa using hrest

theorem readsBack_obj {members : List (String × Json)}
    (h : ∀ member ∈ members, ReadsBack depth member.2) : ReadsBack (depth + 1) (.obj members) := by
  intro fuel rest hfuel hrest
  cases fuel with
  | zero => rcases members with _ | ⟨⟨_, _⟩, _⟩ <;> exact absurd hfuel (by simp [print])
  | succ fuel =>
      cases members with
      | nil => rfl
      | cons member members =>
          obtain ⟨name, value⟩ := member
          rw [print] at hfuel ⊢
          simp only [List.cons_append, List.length_append, List.length_cons] at hfuel
          have hvalue : ReadsBack depth value := h _ List.mem_cons_self
          have hread := readMembers_print name hvalue
            (fun member hmem => h member (List.mem_cons_of_mem _ hmem)) fuel (by omega) [] rest
          have hobject : ∀ cs, readValue (fuel + 1) (depth + 1) ('{' :: '"' :: cs) =
              readMembers fuel depth ('"' :: cs) [] true := fun _ => rfl
          rw [quoted_eq_cons] at hread ⊢
          simp only [List.cons_append, List.append_assoc] at hread ⊢
          rw [hobject]
          exact hread

/-- **A plain value is read back from what is printed of it.** -/
theorem Plain.readsBack {json : Json} (h : Plain depth json) : ReadsBack depth json := by
  induction h with
  | null => exact readsBack_null
  | bool b => exact readsBack_bool b
  | natural h => exact readsBack_natural h
  | negative h => exact readsBack_negative h
  | str s => exact readsBack_str s
  | arr h ih => exact readsBack_arr h ih
  | obj h ih => exact readsBack_obj ih

/-! ## Whole texts -/

theorem Plain.mono {deeper : Nat} {json : Json} (h : Plain depth json) (hle : depth ≤ deeper) :
    Plain deeper json := by
  induction h generalizing deeper with
  | null => exact .null
  | bool b => exact .bool b
  | natural h => exact .natural h
  | negative h => exact .negative h
  | str s => exact .str s
  | arr _ ih =>
      cases deeper with
      | zero => exact absurd hle (Nat.not_succ_le_zero _)
      | succ deeper => exact .arr fun item hmem => ih item hmem (Nat.le_of_succ_le_succ hle)
  | obj _ ih =>
      cases deeper with
      | zero => exact absurd hle (Nat.not_succ_le_zero _)
      | succ deeper => exact .obj fun member hmem => ih member hmem (Nat.le_of_succ_le_succ hle)

theorem readableItems_of_all {items : List Json} (h : ∀ item ∈ items, item.readable = true) :
    readableItems items = true := by
  induction items with
  | nil => rfl
  | cons item items ih =>
      rw [readableItems, h item List.mem_cons_self, Bool.true_and]
      exact ih fun item hmem => h item (List.mem_cons_of_mem _ hmem)

theorem readableMembers_of_all {members : List (String × Json)}
    (h : ∀ member ∈ members, member.2.readable = true) : readableMembers members = true := by
  induction members with
  | nil => rfl
  | cons member members ih =>
      obtain ⟨name, value⟩ := member
      have hvalue : value.readable = true := h _ List.mem_cons_self
      rw [readableMembers, hvalue, Bool.true_and]
      exact ih fun member hmem => h member (List.mem_cons_of_mem _ hmem)

theorem Plain.readable {json : Json} (h : Plain depth json) : json.readable = true := by
  induction h with
  | arr _ ih => exact readableItems_of_all ih
  | obj _ ih => exact readableMembers_of_all ih
  | _ => rfl

theorem parseNested?_render {json : Json} (h : Plain depth json) :
    parseNested? depth json.render = some json := by
  have hread := h.readsBack (json.print.length + 1) [] (Nat.le_succ _)
    fun _ _ heq => absurd heq (by simp)
  rw [List.append_nil] at hread
  simp only [parseNested?, render, String.toList_ofList, hread]
  rfl

/-- **What is printed of a message is read back.** -/
theorem parse?_render {json : Json} (h : Plain maxDepth json) :
    parse? json.render = some json := by
  rw [parse?, parseNested?_render h]
  simp [Option.filter, h.readable]

theorem parseLenient?_render {json : Json} (h : Plain depth json)
    (hdepth : depth ≤ json.print.length) : parseLenient? json.render = some json := by
  have hlength : json.render.length = json.print.length := String.length_ofList
  rw [parseLenient?, hlength]
  exact parseNested?_render (h.mono hdepth)

/-! ## No control characters -/

theorem isControl_of_isDigit {c : Char} (h : c.isDigit = true) : isControl c = false := by
  rw [← Bool.not_eq_true]
  intro hcontrol
  have hlow : c.toNat < 0x20 := of_decide_eq_true hcontrol
  have hdigit : 48 ≤ c.toNat := by
    simp only [Char.isDigit, Bool.and_eq_true, decide_eq_true_eq] at h
    exact h.1
  omega

theorem isControl_printItems {items : List Json}
    (h : ∀ item ∈ items, ∀ c ∈ item.print, isControl c = false) :
    ∀ c ∈ printItems items, isControl c = false := by
  intro c hmem
  induction items with
  | nil =>
      rw [printItems, List.mem_singleton] at hmem
      exact hmem ▸ rfl
  | cons item items ih =>
      rw [printItems, List.cons_append, List.mem_cons, List.mem_append] at hmem
      rcases hmem with rfl | hmem | hmem
      · rfl
      · exact h item List.mem_cons_self c hmem
      · exact ih (fun item hitem => h item (List.mem_cons_of_mem _ hitem)) hmem

theorem isControl_printMembers {members : List (String × Json)}
    (h : ∀ member ∈ members, ∀ c ∈ member.2.print, isControl c = false) :
    ∀ c ∈ printMembers members, isControl c = false := by
  intro c hmem
  induction members with
  | nil =>
      rw [printMembers, List.mem_singleton] at hmem
      exact hmem ▸ rfl
  | cons member members ih =>
      obtain ⟨name, value⟩ := member
      simp only [printMembers, List.cons_append, List.append_assoc, List.mem_cons,
        List.mem_append] at hmem
      rcases hmem with rfl | hmem | rfl | hmem | hmem
      · rfl
      · exact isControl_quoted hmem
      · rfl
      · exact h _ List.mem_cons_self c hmem
      · exact ih (fun member hmember => h member (List.mem_cons_of_mem _ hmember)) hmem

theorem isControl_of_any {cs : List Char} (h : cs.any isControl = false) :
    ∀ c ∈ cs, isControl c = false :=
  fun c hmem => Bool.eq_false_iff.mpr (List.any_eq_false.mp h c hmem)

/-- **What is printed of a plain value has no control characters, and so no line breaks.** -/
theorem Plain.isControl_print {json : Json} (h : Plain depth json) :
    ∀ c ∈ json.print, isControl c = false := by
  induction h with
  | null => exact isControl_of_any rfl
  | bool b => cases b <;> exact isControl_of_any rfl
  | natural _ => exact fun c hmem => isControl_of_isDigit (isDigit_of_mem_toDigits hmem)
  | negative _ =>
      intro c hmem
      rcases List.mem_cons.mp hmem with rfl | hmem
      · rfl
      · exact isControl_of_isDigit (isDigit_of_mem_toDigits hmem)
  | str s => exact fun c hmem => isControl_quoted hmem
  | @arr depth items _ ih =>
      intro c hmem
      cases items with
      | nil =>
          simp only [print, List.mem_cons, List.not_mem_nil, or_false] at hmem
          rcases hmem with rfl | rfl <;> rfl
      | cons item items =>
          rw [print, List.cons_append, List.mem_cons, List.mem_append] at hmem
          rcases hmem with rfl | hmem | hmem
          · rfl
          · exact ih item List.mem_cons_self c hmem
          · exact isControl_printItems (fun item hitem => ih item (List.mem_cons_of_mem _ hitem))
              c hmem
  | @obj depth members _ ih =>
      intro c hmem
      cases members with
      | nil =>
          simp only [print, List.mem_cons, List.not_mem_nil, or_false] at hmem
          rcases hmem with rfl | rfl <;> rfl
      | cons member members =>
          obtain ⟨name, value⟩ := member
          simp only [print, List.cons_append, List.append_assoc, List.mem_cons,
            List.mem_append] at hmem
          rcases hmem with rfl | hmem | rfl | hmem | hmem
          · rfl
          · exact isControl_quoted hmem
          · rfl
          · exact ih _ List.mem_cons_self c hmem
          · exact isControl_printMembers
              (fun member hmember => ih member (List.mem_cons_of_mem _ hmember)) c hmem

end Xsmp.Json
