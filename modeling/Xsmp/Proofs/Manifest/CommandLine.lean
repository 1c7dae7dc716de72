import Xsmp.Proofs.Manifest.Grammar
import Xsmp.Proofs.Manifest.Lookup
import Xsmp.Proofs.Text.Escape

/-!
# Writing a command line into a manifest

Any arguments can be written as a command line: each in quotes, with a backslash before quotes
and backslashes and with percent signs doubled. Written as a value, with escapes, the command
line is one line of a manifest, and it is read back as those arguments.
-/

namespace Xsmp

/-! ## Command lines -/

namespace Exec

def quoteChar (c : Char) : List Char :=
  if c = '"' ∨ c = '\\' then ['\\', c]
  else if c = '%' then ['%', '%']
  else [c]

/-- An argument in quotes. -/
def quoteArgument (argument : List Char) : List Char :=
  '"' :: argument.flatMap quoteChar ++ ['"']

/-- Arguments as a command line. -/
def commandLine (arguments : List (List Char)) : List Char :=
  [' '].intercalate (arguments.map quoteArgument)

variable {rest : List Char} {tokens : List Token} {ending : Ending}

theorem Reading.quoteChar (c : Char) (h : Reading true rest tokens ending) :
    Reading true (Exec.quoteChar c ++ rest) (.char c :: tokens) ending := by
  rw [Exec.quoteChar]
  split
  · exact .escaped h
  · next hplain =>
    obtain ⟨hquote, hbackslash⟩ := not_or.mp hplain
    split
    · next hpercent => exact hpercent ▸ .percent h
    · next hpercent => exact .quoted hquote hpercent hbackslash h

/-- The tokens of an argument in quotes. -/
def argumentTokens (argument : List Char) : List Token :=
  .opening :: argument.map .char ++ [.closing]

theorem Reading.quoteArgument (argument : List Char) (h : Reading false rest tokens ending) :
    Reading false (Exec.quoteArgument argument ++ rest) (argumentTokens argument ++ tokens)
      ending := by
  have hinside : Reading true (argument.flatMap Exec.quoteChar ++ ('"' :: rest))
      (argument.map .char ++ (.closing :: tokens)) ending := by
    induction argument with
    | nil => exact .closing h
    | cons c argument ih =>
      rw [List.flatMap_cons, List.append_assoc]
      exact ih.quoteChar c
  simpa [Exec.quoteArgument, argumentTokens] using Reading.opening hinside

theorem wordsOf_argumentTokens (argument : List Char) :
    wordsOf (argumentTokens argument) = [argument] := by
  have hgap : ∀ token ∈ argumentTokens argument, token.isGap = false := by
    simp only [argumentTokens, List.cons_append, List.forall_mem_cons, List.forall_mem_append,
      List.forall_mem_map]
    exact ⟨rfl, fun _ _ => rfl, rfl, nofun⟩
  have hchars : (argumentTokens argument).filterMap Token.char? = argument := by
    rw [argumentTokens, List.filterMap_append, List.filterMap_cons, List.filterMap_map]
    exact (List.append_nil _).trans List.filterMap_some
  have hword : word? (argumentTokens argument) = some argument := by
    rw [word?, hchars, argumentTokens]
    rfl
  rw [wordsOf, stretches, List.splitOnP_eq_singleton hgap, List.filterMap_cons, hword]
  rfl

/-- A command line is read as its arguments. -/
theorem exists_reading_commandLine {arguments : List (List Char)} (h : arguments ≠ []) :
    ∃ tokens, Reading false (commandLine arguments) tokens .outside ∧
      wordsOf tokens = arguments := by
  induction arguments with
  | nil => exact absurd rfl h
  | cons argument arguments ih =>
    cases arguments with
    | nil =>
      refine ⟨argumentTokens argument ++ [], ?_, ?_⟩
      · simpa [commandLine] using Reading.quoteArgument argument .outside
      · rw [List.append_nil, wordsOf_argumentTokens]
    | cons next arguments =>
      obtain ⟨tokens, hreading, hwords⟩ := ih (List.cons_ne_nil _ _)
      refine ⟨argumentTokens argument ++ .gap :: tokens, ?_, ?_⟩
      · have hgap := Reading.quoteArgument argument (.gap (c := ' ') (by decide) hreading)
        simpa [commandLine, List.intercalate_cons_cons] using hgap
      · rw [wordsOf_append_gap, wordsOf_argumentTokens, hwords, List.singleton_append]

/-- **A command line is split into its arguments.** -/
theorem command?_commandLine {arguments : List String} (h : arguments ≠ []) :
    command? (String.ofList (commandLine (arguments.map String.toList))) = some arguments := by
  have hne : arguments.map String.toList ≠ [] := by simpa using h
  obtain ⟨tokens, hreading, hwords⟩ := exists_reading_commandLine hne
  have htext : Reading false
      (String.ofList (commandLine (arguments.map String.toList))).toList tokens .outside := by
    simpa using hreading
  rw [command?_of_reading htext, hwords]
  simp [h, Function.comp_def]

/-- A command line begins and ends with a quote. -/
theorem commandLine_ends {arguments : List (List Char)} (h : arguments ≠ []) :
    ∃ inner, commandLine arguments = '"' :: inner ++ ['"'] := by
  induction arguments with
  | nil => exact absurd rfl h
  | cons argument arguments ih =>
    cases arguments with
    | nil => exact ⟨argument.flatMap quoteChar, by simp [commandLine, quoteArgument]⟩
    | cons next arguments =>
      obtain ⟨inner, hinner⟩ := ih (List.cons_ne_nil _ _)
      refine ⟨argument.flatMap quoteChar ++ '"' :: ' ' :: '"' :: inner, ?_⟩
      have hcons : commandLine (argument :: next :: arguments) =
          quoteArgument argument ++ ' ' :: commandLine (next :: arguments) := by
        simp [commandLine, List.intercalate_cons_cons]
      rw [hcons, hinner, quoteArgument]
      simp

end Exec

/-! ## Lines of a manifest -/

namespace Manifest

/-- The line of a manifest that gives a command line. -/
def execLine (arguments : List String) : List Char :=
  "Exec=".toList ++ Text.escape (Exec.commandLine (arguments.map String.toList))

variable {arguments : List String} {before after : List (List Char)} {blanks : List Char}

theorem ofText_execLine (h : arguments ≠ []) (hblanks : ∀ c ∈ blanks, Text.isBlank c = true) :
    ManifestLine.ofText (execLine arguments ++ blanks) =
      .pair "Exec".toList (Exec.commandLine (arguments.map String.toList)) := by
  have hne : arguments.map String.toList ≠ [] := by simpa using h
  obtain ⟨inner, hinner⟩ := Exec.commandLine_ends hne
  have hescape : Text.escape (Exec.commandLine (arguments.map String.toList)) =
      '"' :: Text.escape inner ++ ['"'] := by
    rw [hinner]
    simp [Text.escape, Text.escapeChar]
  have hstart : Text.trimStart (Text.escape (Exec.commandLine (arguments.map String.toList))) =
      Text.escape (Exec.commandLine (arguments.map String.toList)) := by
    rw [hescape]
    rfl
  have hend :
      Text.trimEnd ('=' :: Text.escape (Exec.commandLine (arguments.map String.toList))) =
        '=' :: Text.escape (Exec.commandLine (arguments.map String.toList)) := by
    rw [hescape]
    exact Text.trimEnd_append (by rfl) (by decide) ('=' :: '"' :: Text.escape inner)
  have hkey : IsKey "Exec".toList := ⟨by decide, by decide, by decide, by decide, by decide⟩
  have hline : execLine arguments = "Exec".toList ++
      '=' :: Text.escape (Exec.commandLine (arguments.map String.toList)) := rfl
  rw [hline, ofText_written hkey hstart hend hblanks, Text.unescape_escape]

theorem lineFeed_not_mem_execLine (arguments : List String) : '\n' ∉ execLine arguments := by
  rw [execLine, List.mem_append]
  exact not_or_intro (by decide) (Text.lineFeed_not_mem_escape _)

/-- **A manifest can hold any command line.** The line that gives it may stand anywhere in a group
of the manifest where no command line stands before it, as long as no line is malformed. Blanks
may follow it, such as a carriage return. -/
theorem command?_of_execLine (hne : arguments ≠ [])
    (hblanks : ∀ c ∈ blanks, Text.isBlank c = true ∧ c ≠ '\n')
    (h : Surrounds before (execLine arguments ++ blanks) after)
    (hfirst : ∀ value, ¬ Holds before ("Exec", value)) (source : Path) :
    ∃ manifest,
      parse source (ofLines (before ++ (execLine arguments ++ blanks) :: after)) = .ok manifest ∧
        manifest.exec?.bind Exec.command? = some arguments := by
  have hfeed : '\n' ∉ execLine arguments ++ blanks := by
    rw [List.mem_append]
    exact not_or_intro (lineFeed_not_mem_execLine arguments) fun hmem => (hblanks _ hmem).2 rfl
  obtain ⟨manifest, hparse, htext⟩ := text?_of_first h hfeed
    (ofText_execLine hne fun c hc => (hblanks c hc).1) (by decide) hfirst source
  refine ⟨manifest, hparse, ?_⟩
  have hexec : manifest.exec? =
      some (String.ofList (Exec.commandLine (arguments.map String.toList))) := htext
  rw [hexec, Option.bind_some, Exec.command?_commandLine hne]

/-- An argument with a blank in it, an empty one, and one of characters that are written with
others before them. -/
def awkward : List String := ["a b", "", "\\\"%\n"]

/-- A manifest with a command line in a foreign group, the one that counts, and a second one. -/
theorem command?_of_execLine_awkward :
    Surrounds ["[Other]".toList, "Exec=x".toList, "[Desktop Entry]".toList, "Name=x".toList]
      (execLine awkward ++ ['\r']) ["Exec=y".toList] ∧
    ∃ manifest, parse ⟨"x.desktop"⟩ (ofLines
      (["[Other]".toList, "Exec=x".toList, "[Desktop Entry]".toList, "Name=x".toList] ++
        (execLine awkward ++ ['\r']) :: ["Exec=y".toList])) = .ok manifest ∧
      manifest.exec?.bind Exec.command? = some awkward := by
  have hsurrounds : Surrounds
      ["[Other]".toList, "Exec=x".toList, "[Desktop Entry]".toList, "Name=x".toList]
      (execLine awkward ++ ['\r']) ["Exec=y".toList] := by decide
  have hother : ∀ b l a,
      ["[Other]".toList, "Exec=x".toList, "[Desktop Entry]".toList, "Name=x".toList] =
        b ++ l :: a →
      groupAfter b = some groupName → l = "Name=x".toList :=
    (forall_append_cons_iff (P := fun b l => groupAfter b = some groupName → l = _)).mpr
      (by decide)
  have hblanks : ∀ c ∈ ['\r'], Text.isBlank c = true ∧ c ≠ '\n' := by
    intro c hc
    rw [List.mem_singleton.mp hc]
    exact ⟨rfl, by decide⟩
  refine ⟨hsurrounds, command?_of_execLine (List.cons_ne_nil _ _) hblanks hsurrounds ?_ _⟩
  rintro value ⟨b, l, a, key, v, heq, hgroup, hline, hpair⟩
  rw [hother b l a heq hgroup] at hline
  obtain rfl : "Name".toList = key := (ManifestLine.pair.inj hline).1
  exact absurd (Prod.mk.inj hpair).1 (by decide)

end Manifest

end Xsmp
