import Xsmp.Manifest.Basic
import Xsmp.Proofs.Text.Blank

/-!
# Looking up a key

A text is its lines. A line stands in the group of the last header before it, and it is
malformed if it is a header without its closing bracket, or if it stands in the group of a
manifest and is neither blank nor a pair. If no line is malformed, the first pair with a key in
that group is what is found under the key, whatever comes after it.
-/

namespace Xsmp

namespace Manifest

/-- The text of lines, with a line feed between them. -/
def ofLines (lines : List (List Char)) : String := String.ofList (['\n'].intercalate lines)

variable {before after lines more : List (List Char)} {line : List Char} {scan scan' : Scan}
  {number : Nat}

theorem pieces_ofLines (hne : lines ≠ []) (hfeed : ∀ line ∈ lines, '\n' ∉ line) :
    Text.pieces '\n' (ofLines lines).toList = lines := by
  rw [Text.pieces_eq_splitOn, ofLines, String.toList_ofList, List.splitOn_intercalate _ hfeed hne]

/-! ## Groups -/

/-- The group that a line is the header of. -/
def header? (line : List Char) : Option (List Char) :=
  match ManifestLine.ofText line with
  | .header group => some group
  | _ => none

/-- The group that one stands in after some lines. -/
def groupAfter (lines : List (List Char)) : Option (List Char) :=
  (lines.filterMap header?).getLast?

/-- Whether a line spoils the manifest, given the lines before it. -/
def Malformed (before : List (List Char)) (line : List Char) : Prop :=
  ManifestLine.ofText line = .brokenHeader ∨
    ManifestLine.ofText line = .other ∧ groupAfter before = some groupName

instance (before : List (List Char)) (line : List Char) : Decidable (Malformed before line) :=
  inferInstanceAs (Decidable (_ ∨ _))

theorem groupAfter_snoc :
    groupAfter (before ++ [line]) = (header? line).or (groupAfter before) := by
  rw [groupAfter, List.filterMap_append, List.getLast?_append, groupAfter]
  cases hheader : header? line <;> simp [hheader]

/-! ## Reading line by line -/

/-- The pairs that count after some lines: those that stand in the group of a manifest. -/
def Holds (lines : List (List Char)) (pair : String × String) : Prop :=
  ∃ before line after key value, lines = before ++ line :: after ∧
    groupAfter before = some groupName ∧ ManifestLine.ofText line = .pair key value ∧
      pair = (String.ofList key, String.ofList value)

theorem Holds.append {pair : String × String} (h : Holds before pair) :
    Holds (before ++ after) pair := by
  obtain ⟨b, line, a, key, value, rfl, hrest⟩ := h
  exact ⟨b, line, a ++ after, key, value, by simp, hrest⟩

/-- What has been read after some lines. -/
structure Scan.After (lines : List (List Char)) (scan : Scan) : Prop where
  inGroup : scan.inGroup = true ↔ groupAfter lines = some groupName
  found : groupAfter lines = some groupName → scan.found = true
  values : ∀ pair ∈ scan.values, Holds lines pair

theorem Scan.After.start : Scan.After [] {} := ⟨by simp [groupAfter], by simp [groupAfter], nofun⟩

/-- How a scan goes on: a group that was found stays found, and values are only added. -/
structure Scan.Extends (scan scan' : Scan) : Prop where
  found : scan.found = true → scan'.found = true
  values : ∃ new, scan'.values = new ++ scan.values

theorem Scan.Extends.trans {scan'' : Scan} (h : scan.Extends scan') (h' : scan'.Extends scan'') :
    scan.Extends scan'' := by
  obtain ⟨new, hnew⟩ := h.values
  obtain ⟨new', hnew'⟩ := h'.values
  exact ⟨fun hfound => h'.found (h.found hfound), new' ++ new, by rw [hnew', hnew]; simp⟩

/-- A line that is not malformed is read. -/
theorem Scan.After.step (h : Scan.After before scan) (hgood : ¬ Malformed before line) :
    ∃ scan', scan.line? (.ofText line) = some scan' ∧ Scan.After (before ++ [line]) scan' ∧
      scan.Extends scan' := by
  have hvalues : ∀ pair ∈ scan.values, Holds (before ++ [line]) pair :=
    fun pair hpair => (h.values pair hpair).append
  have hgroup : groupAfter (before ++ [line]) = (header? line).or (groupAfter before) :=
    groupAfter_snoc
  rw [header?] at hgroup
  cases hline : ManifestLine.ofText line with
  | blank =>
    rw [hline, Option.none_or] at hgroup
    exact ⟨scan, rfl, ⟨hgroup ▸ h.inGroup, hgroup ▸ h.found, hvalues⟩, id, [], rfl⟩
  | header group =>
    rw [hline, Option.some_or] at hgroup
    refine ⟨_, rfl, ⟨?_, ?_, hvalues⟩, ?_, [], rfl⟩
    · simp [hgroup]
    · simp +contextual [hgroup]
    · simp +contextual
  | brokenHeader => exact absurd (.inl hline) hgood
  | pair key value =>
    rw [hline, Option.none_or] at hgroup
    rw [Scan.line?]
    split
    · next hcounts =>
      have hin : groupAfter before = some groupName :=
        h.inGroup.mp (Bool.and_eq_true_iff.mp hcounts).1
      refine ⟨_, rfl, ⟨hgroup ▸ h.inGroup, hgroup ▸ h.found, ?_⟩, id, [_], rfl⟩
      exact List.forall_mem_cons.mpr
        ⟨⟨before, line, [], key, value, rfl, hin, hline, rfl⟩, hvalues⟩
    · exact ⟨scan, rfl, ⟨hgroup ▸ h.inGroup, hgroup ▸ h.found, hvalues⟩, id, [], rfl⟩
  | other =>
    rw [hline, Option.none_or] at hgroup
    have hout : ¬ scan.inGroup = true := fun hin => hgood (.inr ⟨hline, h.inGroup.mp hin⟩)
    rw [Scan.line?, if_neg hout]
    exact ⟨scan, rfl, ⟨hgroup ▸ h.inGroup, hgroup ▸ h.found, hvalues⟩, id, [], rfl⟩

/-- Lines of which none is malformed are read, with what comes after them. -/
theorem Scan.After.scanLines (h : Scan.After before scan)
    (hgood : ∀ b line a, lines = b ++ line :: a → ¬ Malformed (before ++ b) line) (number : Nat)
    (more : List (List Char)) :
    ∃ scan', Manifest.scanLines scan number (lines ++ more) =
        Manifest.scanLines scan' (number + lines.length) more ∧
      Scan.After (before ++ lines) scan' ∧ scan.Extends scan' := by
  induction lines generalizing before scan number with
  | nil => exact ⟨scan, rfl, by rwa [List.append_nil], id, [], rfl⟩
  | cons line lines ih =>
    obtain ⟨scan', hline, hafter, hextends⟩ :=
      h.step (by simpa using hgood [] line lines rfl)
    have hrest : ∀ b l a, lines = b ++ l :: a → ¬ Malformed (before ++ [line] ++ b) l := by
      rintro b l a rfl
      simpa using hgood (line :: b) l a rfl
    obtain ⟨scan'', hlines, hafter', hextends'⟩ := ih hafter hrest (number + 1)
    refine ⟨scan'', ?_, by simpa using hafter', hextends.trans hextends'⟩
    rw [List.cons_append, Manifest.scanLines, hline, List.length_cons, Nat.add_comm lines.length,
      ← Nat.add_assoc, ← hlines]

/-! ## The first value of a key -/

/-- The lines before and after a line that stands in the group of a manifest. -/
structure Surrounds (before : List (List Char)) (line : List Char) (after : List (List Char)) :
    Prop where
  lines : ∀ other ∈ before ++ after, '\n' ∉ other
  group : groupAfter before = some groupName
  /-- No line of the text is malformed. -/
  sound : ∀ b l a, before ++ line :: after = b ++ l :: a → ¬ Malformed b l

/-- What holds of each item and those before it holds at each position. -/
theorem forall_append_cons_iff {α : Type} {xs : List α} {P : List α → α → Prop} :
    (∀ before x after, xs = before ++ x :: after → P before x) ↔
      ∀ i : Fin xs.length, P (xs.take i) xs[i] := by
  constructor
  · intro h i
    exact h _ _ (xs.drop (i + 1)) (by simp)
  · rintro h before x after rfl
    simpa using h ⟨before.length, by simp⟩

instance (before : List (List Char)) (line : List Char) (after : List (List Char)) :
    Decidable (Surrounds before line after) :=
  decidable_of_iff
    ((∀ other ∈ before ++ after, '\n' ∉ other) ∧ groupAfter before = some groupName ∧
      ∀ i : Fin (before ++ line :: after).length,
        ¬ Malformed ((before ++ line :: after).take i) (before ++ line :: after)[i])
    ⟨fun h => ⟨h.1, h.2.1, forall_append_cons_iff.mpr h.2.2⟩,
      fun h => ⟨h.lines, h.group, forall_append_cons_iff.mp h.sound⟩⟩

theorem Surrounds.pieces (h : Surrounds before line after) (hfeed : '\n' ∉ line) :
    Text.pieces '\n' (ofLines (before ++ line :: after)).toList = before ++ line :: after := by
  refine pieces_ofLines (List.append_ne_nil_of_right_ne_nil before (List.cons_ne_nil line after))
    fun other hother => ?_
  rcases List.mem_append.mp hother with hother | hother
  · exact h.lines other (List.mem_append_left after hother)
  · rcases List.mem_cons.mp hother with rfl | hother
    · exact hfeed
    · exact h.lines other (List.mem_append_right before hother)

/-- **The first value of a key counts.** -/
theorem text?_of_first {key value : List Char} (h : Surrounds before line after)
    (hfeed : '\n' ∉ line) (hline : ManifestLine.ofText line = .pair key value)
    (hkey : '[' ∉ key) (hfirst : ∀ v, ¬ Holds before (String.ofList key, v)) (source : Path) :
    ∃ manifest, parse source (ofLines (before ++ line :: after)) = .ok manifest ∧
      manifest.text? (String.ofList key) = some (String.ofList value) := by
  have hsound : ∀ b l a, before = b ++ l :: a → ¬ Malformed ([] ++ b) l := by
    rintro b l a rfl
    exact h.sound b l (a ++ line :: after) (by simp)
  obtain ⟨scan, hscan, hbefore, -⟩ := (Scan.After.start).scanLines hsound 1 (line :: after)
  -- the line adds its value in front of those that were read before
  have hstep : scan.line? (.ofText line) = some { scan with
      values := (String.ofList key, String.ofList value) :: scan.values } := by
    have hin : scan.inGroup = true := hbefore.inGroup.mpr h.group
    simp [hline, Scan.line?, hin, hkey]
  obtain ⟨_, hstep', hafter', -⟩ := hbefore.step (h.sound before line after rfl)
  obtain rfl := Option.some.inj (hstep.symm.trans hstep')
  have hsound' : ∀ b l a, after = b ++ l :: a → ¬ Malformed ([] ++ before ++ [line] ++ b) l := by
    rintro b l a rfl
    exact h.sound _ l a (by simp)
  obtain ⟨last, hlast, -, hextends⟩ := hafter'.scanLines hsound' (1 + before.length + 1) []
  have hread : scanLines {} 1 (before ++ line :: after) = .ok last := by
    rw [hscan, scanLines, hstep]
    simpa [scanLines] using hlast
  have hfound : last.found = true := hextends.found (hbefore.found h.group)
  have hparse : parse source (ofLines (before ++ line :: after)) =
      .ok { source, values := last.values.reverse } := by
    rw [parse, h.pieces hfeed, hread]
    exact if_pos hfound
  refine ⟨_, hparse, ?_⟩
  -- and it is the first one with that key, from the end on
  obtain ⟨new, hnew⟩ := hextends.values
  have hnone : scan.values.reverse.lookup (String.ofList key) = none := by
    rw [List.lookup_eq_none_iff]
    intro pair hpair
    refine bne_iff_ne.mpr fun heq => hfirst pair.2 ?_
    rw [heq]
    exact hbefore.values pair (List.mem_reverse.mp hpair)
  rw [text?, hnew]
  simp [List.lookup_append, hnone]

/-! ## Written lines -/

/-- What can be written as a key: it is on one line, without blanks at its ends, an equals sign
or a language, and it is not taken for a comment. -/
structure IsKey (key : List Char) : Prop where
  equals : '=' ∉ key
  language : '[' ∉ key
  lineFeed : '\n' ∉ key
  comment : key.head? ≠ some '#'
  trimmed : Text.trim key = key

variable {key value blanks : List Char}

theorem ofTrimmed_written (h : IsKey key) (value : List Char) :
    ManifestLine.ofTrimmed (key ++ '=' :: value) =
      .pair key (Text.unescape (Text.trimStart value)) := by
  have hplain : ∀ c ∈ key, (c != '=') = true := by
    intro c hc
    rw [bne_iff_ne]
    rintro rfl
    exact h.equals hc
  have htake : (key ++ '=' :: value).takeWhile (· != '=') = key := by
    rw [List.takeWhile_append_of_pos hplain]
    simp
  have hdrop : (key ++ '=' :: value).dropWhile (· != '=') = '=' :: value := by
    rw [List.dropWhile_append_of_pos hplain]
    simp
  have hfirst : ∀ c rest, key ++ '=' :: value = c :: rest →
      c = '=' ∨ c ∈ key ∧ key.head? = some c := by
    intro c rest hline
    cases key with
    | nil => exact .inl (List.cons.inj hline).1.symm
    | cons first others =>
      obtain rfl := (List.cons.inj hline).1
      exact .inr ⟨List.mem_cons_self, rfl⟩
  unfold ManifestLine.ofTrimmed
  split
  · next hline => simp at hline
  · next rest hline =>
    rcases hfirst _ _ hline with heq | ⟨-, hhead⟩
    · exact absurd heq (by decide)
    · exact absurd hhead h.comment
  · next rest hline =>
    rcases hfirst _ _ hline with heq | ⟨hmem, -⟩
    · exact absurd heq (by decide)
    · exact absurd hmem h.language
  · rw [hdrop, htake, Text.trimEnd_of_trim h.trimmed]
    rfl

/-- A line that gives a key a value is read as that, whatever blanks come after it. -/
theorem ofText_written (h : IsKey key) (hstart : Text.trimStart value = value)
    (hend : Text.trimEnd ('=' :: value) = '=' :: value)
    (hblanks : ∀ c ∈ blanks, Text.isBlank c = true) :
    ManifestLine.ofText (key ++ '=' :: value ++ blanks) = .pair key (Text.unescape value) := by
  have hfront : Text.trimStart (key ++ '=' :: value) = key ++ '=' :: value := by
    cases key with
    | nil => rfl
    | cons c rest =>
      exact Text.trimStart_append (Text.trimStart_of_trim h.trimmed) (List.cons_ne_nil c rest) _
  have hback : Text.trimEnd (key ++ '=' :: value) = key ++ '=' :: value :=
    Text.trimEnd_append hend (List.cons_ne_nil _ _) key
  rw [ManifestLine.ofText, Text.trim_append_blanks hfront hback (by simp) hblanks,
    ofTrimmed_written h, hstart]

end Manifest

end Xsmp
