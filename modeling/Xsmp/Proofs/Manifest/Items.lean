import Xsmp.Proofs.Manifest.Lookup
import Xsmp.Proofs.Text.Escape

/-!
# Lists in a manifest

A list is written with a semicolon after each of its items. A semicolon within an item is written
with a backslash before it, but that is no escape: the backslash is read as itself, and the value
is cut at the semicolon when it is looked up. So a list is read back exactly if no item of it has
a semicolon.
-/

namespace Xsmp

/-! ## Writing a list -/

namespace Text

/-- A character of an item as it is written. -/
def escapeItemChar (c : Char) : List Char := if c = ';' then ['\\', ';'] else escapeChar c

/-- A list as it is written. -/
def escapeItems (items : List (List Char)) : List Char :=
  items.flatMap fun item => item.flatMap escapeItemChar ++ [';']

/-- A character of an item when the escapes are read. -/
def markChar (c : Char) : List Char := if c = ';' then ['\\', ';'] else [c]

/-- An item is cut at its semicolons, and the backslash before each of them stays behind. -/
def cutItem (item : List Char) : List (List Char) :=
  (item.splitOn ';').dropLast.map (· ++ ['\\']) ++
    [(item.splitOn ';').getLast (List.splitOn_ne_nil ';' item)]

variable {item : List Char} {items : List (List Char)}

theorem unescape_escapeItemChar (c : Char) (rest : List Char) :
    unescape (escapeItemChar c ++ rest) = markChar c ++ unescape rest := by
  rw [escapeItemChar, markChar]
  split
  · exact unescape_backslash ';' rest
  · exact unescape_escapeChar c rest

theorem unescape_escapeItems (items : List (List Char)) :
    unescape (escapeItems items) = items.flatMap fun item => item.flatMap markChar ++ [';'] := by
  have hitem : ∀ item rest : List Char, unescape (item.flatMap escapeItemChar ++ rest) =
      item.flatMap markChar ++ unescape rest := by
    intro item rest
    induction item with
    | nil => rfl
    | cons c item ih =>
      rw [List.flatMap_cons, List.append_assoc, unescape_escapeItemChar, ih, List.flatMap_cons,
        List.append_assoc]
  induction items with
  | nil => rfl
  | cons item items ih =>
    rw [escapeItems, List.flatMap_cons, List.append_assoc, hitem, List.singleton_append,
      unescape_cons (by decide), ← escapeItems, ih]
    simp

/-- What is cut off an item ends with the backslash, all but the last piece. -/
theorem splitOn_flatMap_markChar (item : List Char) :
    (item.flatMap markChar).splitOn ';' = cutItem item := by
  induction item with
  | nil => rfl
  | cons c item ih =>
    obtain ⟨first, others, hsplit⟩ :=
      List.exists_cons_of_ne_nil (List.splitOn_ne_nil ';' item)
    rw [List.flatMap_cons]
    by_cases hc : c = ';'
    · subst hc
      have hmark : markChar ';' ++ item.flatMap markChar =
          ['\\'] ++ ';' :: item.flatMap markChar := rfl
      rw [hmark, List.splitOn_append_cons_self, ih]
      simp [cutItem, List.splitOn_cons_eq_if_modifyHead, hsplit]
    · have hmark : markChar c ++ item.flatMap markChar = c :: item.flatMap markChar := by
        rw [markChar, if_neg hc, List.singleton_append]
      rw [hmark, List.splitOn_cons_eq_if_modifyHead, ih]
      cases others <;> simp [cutItem, List.splitOn_cons_eq_if_modifyHead, hsplit, hc]

theorem splitOn_marked (items : List (List Char)) :
    (items.flatMap fun item => item.flatMap markChar ++ [';']).splitOn ';' =
      items.flatMap cutItem ++ [[]] := by
  induction items with
  | nil => rfl
  | cons item items ih =>
    rw [List.flatMap_cons, List.append_assoc, List.singleton_append,
      List.splitOn_append_cons_self, ih, splitOn_flatMap_markChar, List.flatMap_cons,
      List.append_assoc]

theorem cutItem_of_not_mem (h : ';' ∉ item) : cutItem item = [item] := by
  simp [cutItem, List.splitOn_eq_singleton h]

/-! ### A written list needs no trimming -/

theorem escapeItemChar_cases (c : Char) :
    escapeItemChar c = [c] ∨ ∃ d, escapeItemChar c = ['\\', d] := by
  grind [escapeItemChar, escapeChar]

theorem trimStart_escapeItems (h : ∀ item ∈ items, item ≠ [] ∧ trim item = item) :
    trimStart (escapeItems items) = escapeItems items := by
  cases items with
  | nil => rfl
  | cons item items =>
    obtain ⟨hne, htrim⟩ := h item List.mem_cons_self
    obtain ⟨c, rest, rfl⟩ := List.exists_cons_of_ne_nil hne
    have hfirst : isBlank c = false := by
      have hhead := List.head?_dropWhile_not isBlank (c :: rest)
      rw [← trimStart, trimStart_of_trim htrim] at hhead
      exact hhead
    rw [escapeItems, List.flatMap_cons, List.flatMap_cons]
    rcases escapeItemChar_cases c with hc | ⟨d, hc⟩ <;> rw [hc]
    · simp [trimStart, hfirst]
    · rfl

theorem trimEnd_escapeItems (items : List (List Char)) :
    trimEnd ('=' :: escapeItems items) = '=' :: escapeItems items := by
  rcases List.eq_nil_or_concat items with rfl | ⟨items, item, rfl⟩
  · rfl
  · have hlast : '=' :: escapeItems (items.concat item) =
        ('=' :: escapeItems items ++ item.flatMap escapeItemChar) ++ [';'] := by
      simp [escapeItems]
    rw [hlast]
    exact trimEnd_append (by rfl) (by decide) _

theorem lineFeed_not_mem_escapeItems (items : List (List Char)) : '\n' ∉ escapeItems items := by
  rw [escapeItems, List.mem_flatMap]
  rintro ⟨item, -, hmem⟩
  rw [List.mem_append, List.mem_flatMap] at hmem
  rcases hmem with ⟨c, -, hmem⟩ | hmem
  · grind [escapeItemChar, escapeChar]
  · exact absurd hmem (by decide)

end Text

/-! ## Reading a list -/

namespace Manifest

/-- The line of a manifest that gives a list under a key. -/
def listLine (key : String) (items : List String) : List Char :=
  key.toList ++ '=' :: Text.escapeItems (items.map String.toList)

/-- What is found of an item that was written. -/
def foundOfItem (item : String) : List String :=
  ((Text.cutItem item.toList).filter (!·.isEmpty)).map String.ofList

variable {key : String} {items : List String} {manifest : Manifest}
  {before after : List (List Char)} {blanks : List Char}

theorem foundOfItem_of_not_mem {item : String} (hne : item ≠ "") (h : ';' ∉ item.toList) :
    foundOfItem item = [item] := by
  rw [foundOfItem, Text.cutItem_of_not_mem h]
  simp [hne]

theorem items_of_text? (h : manifest.text? key =
      some (String.ofList (Text.unescape (Text.escapeItems (items.map String.toList))))) :
    manifest.items key = items.flatMap foundOfItem := by
  rw [Manifest.items, h]
  dsimp only
  rw [String.toList_ofList, Text.unescape_escapeItems, Text.pieces_eq_splitOn, Text.splitOn_marked,
    List.flatMap_map, List.filter_append, List.filter_flatMap, List.map_append, List.map_flatMap]
  exact List.append_nil _

/-- No item that is found has a semicolon. -/
theorem semicolon_not_mem_items {item : String} (h : item ∈ manifest.items key) :
    ';' ∉ item.toList := by
  rw [Manifest.items] at h
  split at h
  · obtain ⟨piece, hpiece, rfl⟩ := List.mem_map.mp h
    rw [Text.pieces_eq_splitOn] at hpiece
    intro hmem
    rw [String.toList_ofList] at hmem
    exact absurd (Text.of_mem_splitOnP (List.mem_filter.mp hpiece).1 ';' hmem) (by decide)
  · cases h

/-- The service names of a manifest are the items under one key. -/
theorem provides_iff {service : String} :
    manifest.provides service = true ↔ service ∈ manifest.items "X-GNOME-Provides" :=
  List.contains_iff_mem

/-- A written list is found item by item. -/
theorem exists_items_of_listLine (hkey : IsKey key.toList)
    (hitems : ∀ item ∈ items, item ≠ "" ∧ Text.trim item.toList = item.toList)
    (hblanks : ∀ c ∈ blanks, Text.isBlank c = true ∧ c ≠ '\n')
    (h : Surrounds before (listLine key items ++ blanks) after)
    (hfirst : ∀ value, ¬ Holds before (key, value)) (source : Path) :
    ∃ manifest,
      parse source (ofLines (before ++ (listLine key items ++ blanks) :: after)) = .ok manifest ∧
        manifest.items key = items.flatMap foundOfItem := by
  have hfeed : '\n' ∉ listLine key items ++ blanks := by
    rw [listLine, List.mem_append, List.mem_append, List.mem_cons]
    rintro ((hmem | heq | hmem) | hmem)
    · exact hkey.lineFeed hmem
    · exact absurd heq (by decide)
    · exact Text.lineFeed_not_mem_escapeItems _ hmem
    · exact (hblanks _ hmem).2 rfl
  have hwritten : ∀ item ∈ items.map String.toList, item ≠ [] ∧ Text.trim item = item := by
    rw [List.forall_mem_map]
    intro item hitem
    exact ⟨by simpa using (hitems item hitem).1, (hitems item hitem).2⟩
  have hline : ManifestLine.ofText (listLine key items ++ blanks) =
      .pair key.toList (Text.unescape (Text.escapeItems (items.map String.toList))) :=
    ofText_written hkey (Text.trimStart_escapeItems hwritten) (Text.trimEnd_escapeItems _)
      fun c hc => (hblanks c hc).1
  obtain ⟨manifest, hparse, htext⟩ := text?_of_first h hfeed hline hkey.language
    (by simpa using hfirst) source
  rw [String.ofList_toList] at htext
  exact ⟨manifest, hparse, items_of_text? htext⟩

theorem flatMap_foundOfItem (hitems : ∀ item ∈ items, item ≠ "")
    (hplain : ∀ item ∈ items, ';' ∉ item.toList) : items.flatMap foundOfItem = items := by
  have hitem : ∀ item ∈ items, foundOfItem item = [item] :=
    fun item h => foundOfItem_of_not_mem (hitems item h) (hplain item h)
  rw [List.flatMap_def, List.map_congr_left hitem, ← List.flatMap_def, List.flatMap_singleton']

/-- **A list is found as it was written exactly if no item has a semicolon**, and so are the
services of a manifest. Any list is found with its items cut at their semicolons. The line that
gives it may stand anywhere in a group of the manifest where the key was not given before, as long
as no line is malformed. Blanks may follow it, such as a carriage return. -/
theorem items_of_listLine (hkey : IsKey key.toList)
    (hitems : ∀ item ∈ items, item ≠ "" ∧ Text.trim item.toList = item.toList)
    (hblanks : ∀ c ∈ blanks, Text.isBlank c = true ∧ c ≠ '\n')
    (h : Surrounds before (listLine key items ++ blanks) after)
    (hfirst : ∀ value, ¬ Holds before (key, value)) (source : Path) :
    ∃ manifest,
      parse source (ofLines (before ++ (listLine key items ++ blanks) :: after)) = .ok manifest ∧
        manifest.items key = items.flatMap foundOfItem ∧
        (manifest.items key = items ↔ ∀ item ∈ items, ';' ∉ item.toList) ∧
        (key = "X-GNOME-Provides" →
          ((∀ service, manifest.provides service = true ↔ service ∈ items) ↔
            ∀ item ∈ items, ';' ∉ item.toList)) := by
  obtain ⟨manifest, hparse, hfound⟩ :=
    exists_items_of_listLine hkey hitems hblanks h hfirst source
  have hsame : (∀ item ∈ items, ';' ∉ item.toList) → manifest.items key = items := by
    intro hplain
    rw [hfound, flatMap_foundOfItem (fun item hitem => (hitems item hitem).1) hplain]
  refine ⟨manifest, hparse, hfound, ⟨?_, hsame⟩, ?_⟩
  · intro heq item hitem
    rw [← heq] at hitem
    exact semicolon_not_mem_items hitem
  · rintro rfl
    constructor
    · exact fun hall item hitem =>
        semicolon_not_mem_items (provides_iff.mp ((hall item).mpr hitem))
    · intro hplain service
      rw [provides_iff, hsame hplain]

/-- An item with a semicolon, one that ends with a backslash, and one with a blank in it. -/
def threeItems : List String := ["a;b", "c\\", "d e"]

/-- A manifest with a list in a foreign group, the one that counts, and a second one. -/
theorem items_of_listLine_three :
    (∀ item ∈ threeItems, item ≠ "" ∧ Text.trim item.toList = item.toList) ∧
    Surrounds ["[Other]".toList, "X-GNOME-Provides=x;".toList, "[Desktop Entry]".toList]
      (listLine "X-GNOME-Provides" threeItems ++ ['\r']) ["X-GNOME-Provides=y;".toList] ∧
    ∃ manifest, parse ⟨"x.desktop"⟩ (ofLines
      (["[Other]".toList, "X-GNOME-Provides=x;".toList, "[Desktop Entry]".toList] ++
        (listLine "X-GNOME-Provides" threeItems ++ ['\r']) :: ["X-GNOME-Provides=y;".toList])) =
          .ok manifest ∧
      manifest.items "X-GNOME-Provides" = ["a\\", "b", "c\\", "d e"] := by
  have hitems : ∀ item ∈ threeItems, item ≠ "" ∧ Text.trim item.toList = item.toList := by decide
  have hsurrounds : Surrounds
      ["[Other]".toList, "X-GNOME-Provides=x;".toList, "[Desktop Entry]".toList]
      (listLine "X-GNOME-Provides" threeItems ++ ['\r']) ["X-GNOME-Provides=y;".toList] := by
    decide
  have hblanks : ∀ c ∈ ['\r'], Text.isBlank c = true ∧ c ≠ '\n' := by
    intro c hc
    rw [List.mem_singleton.mp hc]
    exact ⟨rfl, by decide⟩
  have hkey : IsKey "X-GNOME-Provides".toList :=
    ⟨by decide, by decide, by decide, by decide, by decide⟩
  have hfirst : ∀ value, ¬ Holds
      ["[Other]".toList, "X-GNOME-Provides=x;".toList, "[Desktop Entry]".toList]
      ("X-GNOME-Provides", value) := by
    rintro value ⟨b, l, a, -, -, heq, hgroup, -⟩
    exact (forall_append_cons_iff (P := fun b _ => groupAfter b ≠ some groupName)).mpr (by decide)
      b l a heq hgroup
  obtain ⟨manifest, hparse, hfound, -⟩ :=
    items_of_listLine hkey hitems hblanks hsurrounds hfirst ⟨"x.desktop"⟩
  refine ⟨hitems, hsurrounds, manifest, hparse, ?_⟩
  rw [hfound]
  decide

/-- The one item of a list is a service with a semicolon in its name. Two other services are found
instead of it. -/
theorem semicolon_cut :
    (∀ item ∈ ["a;b"], item ≠ "" ∧ Text.trim item.toList = item.toList) ∧
    String.ofList (listLine "X-GNOME-Provides" ["a;b"]) = "X-GNOME-Provides=a\\;b;" ∧
    ∃ manifest,
      parse ⟨"x.desktop"⟩ "[Desktop Entry]\nX-GNOME-Provides=a\\;b;\n" = .ok manifest ∧
        manifest.items "X-GNOME-Provides" = ["a\\", "b"] ∧ manifest.provides "a;b" = false := by
  refine ⟨by decide, by decide, ?_⟩
  refine ⟨{ source := ⟨"x.desktop"⟩, values := [("X-GNOME-Provides", "a\\;b;")] }, ?_, ?_, ?_⟩
  · rfl
  · decide
  · decide

end Manifest

end Xsmp
