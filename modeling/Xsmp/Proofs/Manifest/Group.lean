import Mathlib.Data.List.TakeWhile
import Xsmp.Manifest.Basic
import Xsmp.Proofs.Text.Blank

/-!
# What a manifest says

Of a text only the lines of the groups headed `[Desktop Entry]` count, all such groups together.
Blanks at the ends of a line never count, and neither do empty lines and comments. The first line
that spoils the text makes it malformed: a header without its closing bracket in any group, or a
line without an equals sign in a group that counts. Otherwise there has to be a group that counts,
and what is found under a key is what stands after the first equals sign of the first line that
gives the key.
-/

namespace Xsmp

namespace Manifest

/-! ## Lines and groups -/

/-- The lines of a text without the blanks at their ends. -/
def linesOf (contents : String) : List (List Char) :=
  (contents.toList.splitOn '\n').map Text.trim

/-- A line in brackets is the header of a group. -/
def IsHeader (line : List Char) : Prop := line.head? = some '[' ∧ line.getLast? = some ']'

instance : DecidablePred IsHeader := fun _ => inferInstanceAs (Decidable (_ ∧ _))

/-- The header of a group that counts. -/
def groupHeader : List Char := "[Desktop Entry]".toList

/-- After some lines one stands in a group that counts: their last header is that of one. -/
def InGroup (before : List (List Char)) : Prop :=
  (before.filter IsHeader).getLast? = some groupHeader

instance : DecidablePred InGroup := fun _ => inferInstanceAs (Decidable (_ = _))

/-- A line with anything in it that is neither a comment nor begins like a header. -/
def IsContent (line : List Char) : Prop :=
  line ≠ [] ∧ line.head? ≠ some '#' ∧ line.head? ≠ some '['

instance : DecidablePred IsContent := fun _ => inferInstanceAs (Decidable (_ ∧ _))

/-- Whether a line spoils the text, given the lines before it. -/
def Spoils (before : List (List Char)) (line : List Char) : Prop :=
  (line.head? = some '[' ∧ line.getLast? ≠ some ']') ∨
    (IsContent line ∧ '=' ∉ line ∧ InGroup before)

/-- No line spoils the text. -/
def Sound (lines : List (List Char)) : Prop :=
  ∀ before line after, lines = before ++ line :: after → ¬ Spoils before line

/-- A line gives a value for a key: the key stands before its first equals sign, without a
language in brackets, and the value after it. -/
def Gives (before : List (List Char)) (line : List Char) (key value : String) : Prop :=
  InGroup before ∧ IsContent line ∧ ∃ left right, line = left ++ '=' :: right ∧ '=' ∉ left ∧
    key.toList = Text.trimEnd left ∧ '[' ∉ key.toList ∧
      value.toList = Text.unescape (Text.trimStart right)

/-- No line gives a value for a key. -/
def NotGiven (lines : List (List Char)) (key : String) : Prop :=
  ∀ before line after, lines = before ++ line :: after → ∀ value, ¬ Gives before line key value

/-- The first line that gives a value for a key gives this one. -/
def FirstGiven (lines : List (List Char)) (key value : String) : Prop :=
  ∃ before line after, lines = before ++ line :: after ∧ Gives before line key value ∧
    NotGiven before key

variable {before after lines : List (List Char)} {line left right : List Char}
  {key value : String} {scan scan' : Scan}

/-! ## One more line -/

/-- One more item is the last one or comes after a place in the others. -/
theorem snoc_eq_append_cons {α : Type} {xs before after : List α} {x y : α}
    (h : xs ++ [y] = before ++ x :: after) :
    (before = xs ∧ x = y) ∨ ∃ rest, xs = before ++ x :: rest := by
  rcases List.eq_nil_or_concat after with rfl | ⟨rest, z, rfl⟩
  · obtain ⟨hbefore, hlast⟩ := List.append_inj' h rfl
    cases hlast
    exact .inl ⟨hbefore.symm, rfl⟩
  · have hsplit : xs ++ [y] = (before ++ x :: rest) ++ [z] := by simpa using h
    exact .inr ⟨rest, (List.append_inj' hsplit rfl).1⟩

/-- What holds of each item and those before it, with one more item at the end. -/
theorem forall_snoc_iff {α : Type} {xs : List α} {y : α} {P : List α → α → Prop} :
    (∀ before x after, xs ++ [y] = before ++ x :: after → P before x) ↔
      (∀ before x after, xs = before ++ x :: after → P before x) ∧ P xs y := by
  constructor
  · intro h
    exact ⟨fun before x after hsplit => h before x (after ++ [y]) (by simp [hsplit]), h xs y [] rfl⟩
  · rintro ⟨h, hlast⟩ before x after hsplit
    obtain ⟨rfl, rfl⟩ | ⟨rest, hrest⟩ := snoc_eq_append_cons hsplit
    · exact hlast
    · exact h before x rest hrest

theorem sound_snoc : Sound (before ++ [line]) ↔ Sound before ∧ ¬ Spoils before line :=
  forall_snoc_iff (P := fun before line => ¬ Spoils before line)

theorem notGiven_snoc :
    NotGiven (before ++ [line]) key ↔
      NotGiven before key ∧ ∀ value, ¬ Gives before line key value :=
  forall_snoc_iff (P := fun before line => ∀ value, ¬ Gives before line key value)

theorem firstGiven_snoc :
    FirstGiven (before ++ [line]) key value ↔
      FirstGiven before key value ∨ NotGiven before key ∧ Gives before line key value := by
  constructor
  · rintro ⟨b, l, a, hsplit, hgives, hfirst⟩
    obtain ⟨rfl, rfl⟩ | ⟨rest, hrest⟩ := snoc_eq_append_cons hsplit
    · exact .inr ⟨hfirst, hgives⟩
    · exact .inl ⟨b, l, rest, hrest, hgives, hfirst⟩
  · rintro (⟨b, l, a, rfl, hgives, hfirst⟩ | ⟨hfirst, hgives⟩)
    · exact ⟨b, l, a ++ [line], by simp, hgives, hfirst⟩
    · exact ⟨before, line, [], rfl, hgives, hfirst⟩

theorem inGroup_snoc :
    InGroup (before ++ [line]) ↔ line = groupHeader ∨ ¬ IsHeader line ∧ InGroup before := by
  unfold InGroup
  rw [List.filter_append, List.getLast?_append]
  by_cases hheader : IsHeader line
  · simp [hheader]
  · have hne : line ≠ groupHeader := by
      rintro rfl
      exact hheader (by decide)
    simp [hheader, hne]

/-! ## Kinds of lines -/

/-- What a line without blanks at its ends is taken for. -/
inductive LineKind : List Char → ManifestLine → Prop
  | empty : LineKind [] .blank
  | comment (text : List Char) : LineKind ('#' :: text) .blank
  | header {line group : List Char} (hline : line = '[' :: group ++ [']']) :
      LineKind line (.header group)
  | brokenHeader {line : List Char} (hfirst : line.head? = some '[')
      (hlast : line.getLast? ≠ some ']') : LineKind line .brokenHeader
  | pair {line left right : List Char} (hcontent : IsContent line)
      (hline : line = left ++ '=' :: right) (hleft : '=' ∉ left) :
      LineKind line (.pair (Text.trimEnd left) (Text.unescape (Text.trimStart right)))
  | other {line : List Char} (hcontent : IsContent line) (hline : '=' ∉ line) :
      LineKind line .other

theorem lineKind (line : List Char) : LineKind line (ManifestLine.ofTrimmed line) := by
  unfold ManifestLine.ofTrimmed
  split
  · exact .empty
  · exact .comment _
  · next rest =>
    split
    · next hlast =>
      obtain ⟨group, rfl⟩ := List.getLast?_eq_some_iff.mp hlast
      rw [List.dropLast_concat]
      exact .header rfl
    · next hlast =>
      refine .brokenHeader rfl fun hlast' => hlast ?_
      cases rest with
      | nil => exact absurd hlast' (by decide)
      | cons c rest => simpa using hlast'
  · next hempty hcomment hheader =>
    have hcontent : IsContent line := by
      cases line with
      | nil => exact absurd rfl hempty
      | cons c rest =>
        refine ⟨List.cons_ne_nil _ _, ?_, ?_⟩
        · rw [List.head?_cons, ne_eq, Option.some.injEq]
          rintro rfl
          exact hcomment rest rfl
        · rw [List.head?_cons, ne_eq, Option.some.injEq]
          rintro rfl
          exact hheader rest rfl
    have hsplit : line.takeWhile (· != '=') ++ line.dropWhile (· != '=') = line :=
      List.takeWhile_append_dropWhile
    split
    · next right hright =>
      rw [hright] at hsplit
      exact .pair hcontent hsplit.symm fun hmem => by simpa using List.mem_takeWhile_imp hmem
    · next hnone =>
      refine .other hcontent fun hmem => ?_
      cases hrest : line.dropWhile (· != '=') with
      | nil => simpa using List.dropWhile_eq_nil_iff.mp hrest '=' hmem
      | cons c rest =>
        have hhead := List.head?_dropWhile_not (· != '=') line
        rw [hrest] at hhead
        obtain rfl : c = '=' := by simpa using hhead
        exact hnone rest hrest

theorem IsContent.not_isHeader (h : IsContent line) : ¬ IsHeader line :=
  fun hheader => h.2.2 hheader.1

theorem IsContent.not_spoils (h : IsContent line) (hequals : '=' ∈ line) :
    ¬ Spoils before line := by
  rintro (⟨hfirst, -⟩ | ⟨-, hnone, -⟩)
  · exact h.2.2 hfirst
  · exact hnone hequals

/-- The first equals sign of a line can be found. -/
theorem eq_of_append_cons_eq {left' right' : List Char} (hleft : '=' ∉ left)
    (hleft' : '=' ∉ left') (h : left ++ '=' :: right = left' ++ '=' :: right') :
    left = left' ∧ right = right' := by
  have htake : ∀ left right : List Char, '=' ∉ left →
      (left ++ '=' :: right).takeWhile (· != '=') = left := by
    intro left right hleft
    have hplain : ∀ c ∈ left, (c != '=') = true := by
      intro c hc
      rw [bne_iff_ne]
      rintro rfl
      exact hleft hc
    rw [List.takeWhile_append_of_pos hplain]
    simp
  obtain rfl : left = left' := by
    rw [← htake left right hleft, h, htake left' right' hleft']
  exact ⟨rfl, (List.cons.inj (List.append_cancel_left h)).2⟩

/-- A pair of a group gives one value for one key. -/
theorem gives_pair_iff (hcontent : IsContent line) (hline : line = left ++ '=' :: right)
    (hleft : '=' ∉ left) (hgroup : InGroup before) :
    Gives before line key value ↔
      '[' ∉ Text.trimEnd left ∧ key = String.ofList (Text.trimEnd left) ∧
        value = String.ofList (Text.unescape (Text.trimStart right)) := by
  constructor
  · rintro ⟨-, -, left', right', hline', hleft', hkey, hplain, hvalue⟩
    obtain ⟨rfl, rfl⟩ := eq_of_append_cons_eq hleft hleft' (hline ▸ hline')
    refine ⟨hkey ▸ hplain, ?_, ?_⟩
    · rw [← hkey, String.ofList_toList]
    · rw [← hvalue, String.ofList_toList]
  · rintro ⟨hplain, rfl, rfl⟩
    refine ⟨hgroup, hcontent, left, right, hline, hleft, ?_, ?_, ?_⟩
    · rw [String.toList_ofList]
    · rwa [String.toList_ofList]
    · rw [String.toList_ofList]

/-! ## Reading line by line -/

/-- What has been read after some lines. -/
structure Scan.Reads (before : List (List Char)) (scan : Scan) : Prop where
  inGroup : scan.inGroup = true ↔ InGroup before
  found : scan.found = true ↔ groupHeader ∈ before
  given : ∀ key value, scan.values.reverse.lookup key = some value ↔ FirstGiven before key value
  notGiven : ∀ key, scan.values.reverse.lookup key = none ↔ NotGiven before key

theorem Scan.Reads.start : Scan.Reads [] {} where
  inGroup := by simp [InGroup]
  found := by simp
  given := by simp [FirstGiven]
  notGiven := by simp [NotGiven]

/-- A line that is no header and gives nothing leaves everything as it is. -/
theorem Scan.Reads.pass (h : scan.Reads before) (hheader : ¬ IsHeader line)
    (hgives : ∀ key value, ¬ Gives before line key value) : scan.Reads (before ++ [line]) where
  inGroup := by
    have hne : line ≠ groupHeader := by
      rintro rfl
      exact hheader (by decide)
    simp [h.inGroup, inGroup_snoc, hheader, hne]
  found := by
    have hne : groupHeader ≠ line := by
      rintro rfl
      exact hheader (by decide)
    simp [h.found, hne]
  given key value := by simp [h.given, firstGiven_snoc, hgives]
  notGiven key := by simp [h.notGiven, notGiven_snoc, hgives]

theorem Scan.Reads.header {group : List Char} (h : scan.Reads before)
    (hline : line = '[' :: group ++ [']']) :
    ({ scan with
        inGroup := group == groupName
        found := scan.found || group == groupName } : Scan).Reads (before ++ [line]) := by
  have hheader : IsHeader line := by
    rw [hline]
    exact ⟨rfl, List.getLast?_concat⟩
  have hgroup : group = groupName ↔ line = groupHeader := by
    have hname : groupHeader = '[' :: groupName ++ [']'] := rfl
    rw [hline, hname]
    simp
  have hgives : ∀ key value, ¬ Gives before line key value := by
    rintro key value ⟨-, hcontent, -⟩
    exact hcontent.not_isHeader hheader
  refine ⟨?_, ?_, ?_, ?_⟩
  · simp [inGroup_snoc, hheader, hgroup]
  · simp [h.found, hgroup.trans eq_comm]
  · intro key value
    simp [h.given, firstGiven_snoc, hgives]
  · intro key
    simp [h.notGiven, notGiven_snoc, hgives]

/-- A pair of a group is what is found under its key if nothing was before. -/
theorem Scan.Reads.pair (h : scan.Reads before) (hcontent : IsContent line)
    (hline : line = left ++ '=' :: right) (hleft : '=' ∉ left) (hgroup : InGroup before)
    (hplain : '[' ∉ Text.trimEnd left) :
    ({ scan with
        values := (String.ofList (Text.trimEnd left),
          String.ofList (Text.unescape (Text.trimStart right))) :: scan.values } : Scan).Reads
      (before ++ [line]) := by
  have hgives : ∀ key value, Gives before line key value ↔
      key = String.ofList (Text.trimEnd left) ∧
        value = String.ofList (Text.unescape (Text.trimStart right)) := by
    intro key value
    rw [gives_pair_iff hcontent hline hleft hgroup]
    exact and_iff_right hplain
  have hheader := hcontent.not_isHeader
  have hne : line ≠ groupHeader := by
    rintro rfl
    exact hheader (by decide)
  generalize String.ofList (Text.trimEnd left) = newKey at hgives ⊢
  generalize String.ofList (Text.unescape (Text.trimStart right)) = newValue at hgives ⊢
  refine ⟨?_, ?_, ?_, ?_⟩
  · simp [h.inGroup, inGroup_snoc, hheader, hne]
  · simp [h.found, Ne.symm hne]
  · intro key value
    rw [firstGiven_snoc, ← h.given, ← h.notGiven, hgives, List.reverse_cons, List.lookup_append]
    by_cases hkey : key = newKey
    · cases scan.values.reverse.lookup key <;> simp [hkey, eq_comm (a := value)]
    · have hother : (key == newKey) = false := beq_eq_false_iff_ne.mpr hkey
      simp [hkey, List.lookup_cons, hother]
  · intro key
    rw [notGiven_snoc, ← h.notGiven, List.reverse_cons, List.lookup_append]
    by_cases hkey : key = newKey
    · simp [hkey, hgives]
    · have hother : (key == newKey) = false := beq_eq_false_iff_ne.mpr hkey
      simp [hkey, hgives, List.lookup_cons, hother]

/-- A line spoils the text, or it is read. -/
theorem Scan.Reads.step (h : scan.Reads before) (line : List Char) :
    (Spoils before line ∧ scan.line? (.ofTrimmed line) = none) ∨
      (¬ Spoils before line ∧
        ∃ scan', scan.line? (.ofTrimmed line) = some scan' ∧ scan'.Reads (before ++ [line])) := by
  have hkind := lineKind line
  generalize ManifestLine.ofTrimmed line = kind at hkind ⊢
  cases hkind with
  | empty =>
    have hgives : ∀ key value, ¬ Gives before [] key value := fun _ _ hgives => hgives.2.1.1 rfl
    exact .inr ⟨by simp [Spoils, IsContent], scan, rfl, h.pass (by decide) hgives⟩
  | comment text =>
    have hgives : ∀ key value, ¬ Gives before ('#' :: text) key value :=
      fun _ _ hgives => hgives.2.1.2.1 rfl
    have hheader : ¬ IsHeader ('#' :: text) := fun hheader => absurd hheader.1 (by simp)
    exact .inr ⟨by simp [Spoils, IsContent], scan, rfl, h.pass hheader hgives⟩
  | header hline =>
    refine .inr ⟨?_, _, rfl, h.header hline⟩
    have hhead : line.head? = some '[' ∧ line.getLast? = some ']' := by
      rw [hline]
      exact ⟨rfl, List.getLast?_concat⟩
    rintro (⟨-, hlast⟩ | ⟨hcontent, -⟩)
    · exact hlast hhead.2
    · exact hcontent.2.2 hhead.1
  | brokenHeader hfirst hlast => exact .inl ⟨.inl ⟨hfirst, hlast⟩, rfl⟩
  | @pair _ left right hcontent hline hleft =>
    refine .inr ⟨hcontent.not_spoils (by simp [hline]), ?_⟩
    by_cases hgroup : InGroup before
    · have hin : scan.inGroup = true := h.inGroup.mpr hgroup
      by_cases hplain : '[' ∈ Text.trimEnd left
      · -- a key with a language
        have hgives : ∀ key value, ¬ Gives before line key value := by
          intro key value
          rw [gives_pair_iff hcontent hline hleft hgroup]
          exact fun hgives => hgives.1 hplain
        exact ⟨scan, by simp [Scan.line?, hplain], h.pass hcontent.not_isHeader hgives⟩
      · exact ⟨_, by simp [Scan.line?, hin, hplain], h.pair hcontent hline hleft hgroup hplain⟩
    · have hout : ¬ scan.inGroup = true := fun hin => hgroup (h.inGroup.mp hin)
      have hgives : ∀ key value, ¬ Gives before line key value :=
        fun _ _ hgives => hgroup hgives.1
      exact ⟨scan, by simp [Scan.line?, hout], h.pass hcontent.not_isHeader hgives⟩
  | other hcontent hequals =>
    by_cases hgroup : InGroup before
    · have hin : scan.inGroup = true := h.inGroup.mpr hgroup
      exact .inl ⟨.inr ⟨hcontent, hequals, hgroup⟩, by simp [Scan.line?, hin]⟩
    · have hout : ¬ scan.inGroup = true := fun hin => hgroup (h.inGroup.mp hin)
      have hgives : ∀ key value, ¬ Gives before line key value :=
        fun _ _ hgives => hgroup hgives.1
      have hsound : ¬ Spoils before line := by
        rintro (⟨hfirst, -⟩ | ⟨-, -, hin⟩)
        · exact hcontent.2.2 hfirst
        · exact hgroup hin
      exact .inr ⟨hsound, scan, by simp [Scan.line?, hout], h.pass hcontent.not_isHeader hgives⟩

/-- Lines are read up to the first one that spoils the text. -/
theorem Scan.Reads.scanLines (h : scan.Reads before) (hsound : Sound before)
    (more : List (List Char)) :
    (∃ first line rest, more.map Text.trim = first ++ line :: rest ∧ Sound (before ++ first) ∧
        Spoils (before ++ first) line ∧
        Manifest.scanLines scan (before.length + 1) more =
          .error ((before ++ first).length + 1)) ∨
      (Sound (before ++ more.map Text.trim) ∧ ∃ scan',
        Manifest.scanLines scan (before.length + 1) more = .ok scan' ∧
          scan'.Reads (before ++ more.map Text.trim)) := by
  induction more generalizing before scan with
  | nil => exact .inr ⟨by simpa using hsound, scan, rfl, by simpa using h⟩
  | cons line more ih =>
    rw [List.map_cons, Manifest.scanLines, ManifestLine.ofText]
    obtain ⟨hspoils, hline⟩ | ⟨hgood, scan', hline, hreads⟩ := h.step (Text.trim line)
    · exact .inl ⟨[], _, _, rfl, by simpa using hsound, by simpa using hspoils,
        by simp [hline]⟩
    · rw [hline]
      have hrest := ih hreads (sound_snoc.mpr ⟨hsound, hgood⟩)
      rw [List.length_append, List.length_singleton] at hrest
      rcases hrest with ⟨first, other, rest, hmore, hfirst, hspoils, herror⟩ |
        ⟨hall, scan'', hok, hreads'⟩
      · refine .inl ⟨Text.trim line :: first, other, rest, by rw [hmore]; rfl, ?_, ?_, ?_⟩
        · simpa using hfirst
        · simpa using hspoils
        · simpa using herror
      · exact .inr ⟨by simpa using hall, scan'', hok, by simpa using hreads'⟩

/-! ## How a text is understood -/

/-- How a text is understood as a manifest. -/
structure Understood (source : Path) (contents : String) : Prop where
  /-- The first line that spoils it is reported by its number. -/
  malformed : ∀ number, parse source contents = .error (.malformed source number) ↔
    ∃ before line after, linesOf contents = before ++ line :: after ∧ Sound before ∧
      Spoils before line ∧ number = before.length + 1
  missingGroup : parse source contents = .error (.missingGroup source) ↔
    Sound (linesOf contents) ∧ groupHeader ∉ linesOf contents
  /-- Otherwise the first line that gives a key counts. -/
  found : Sound (linesOf contents) → groupHeader ∈ linesOf contents →
    ∃ manifest, parse source contents = .ok manifest ∧ manifest.source = source ∧
      (∀ key value, manifest.text? key = some value ↔ FirstGiven (linesOf contents) key value) ∧
      ∀ key, manifest.text? key = none ↔ NotGiven (linesOf contents) key

end Manifest

end Xsmp
