import Xsmp.Launch.Command
import Xsmp.Proofs.Text.Blank

/-!
# What a command line says

A command line is read as tokens. Outside quotes a quote opens a quoted part and a blank ends
the word; inside quotes a quote closes the part and a backslash takes the next character as it
is; on both sides two percent signs stand for one and a percent sign with another character
stands for nothing. Everything else stands for itself.

Splitting a command line comes to its tokens cut at the blanks. A word counts if it has a
quoted part or a character of its own, and there is no command if no word counts or the line
ends where a token is missing something.
-/

namespace Xsmp.Exec

/-! ## Tokens -/

/-- What a command line is made of. -/
inductive Token where
  /-- A quoted part begins. -/
  | opening
  /-- A quoted part ends. -/
  | closing
  /-- Something that stands for a character. -/
  | char (c : Char)
  /-- A code, which stands for nothing. -/
  | code
  /-- A blank between words. -/
  | gap
  deriving DecidableEq

namespace Token

def isGap : Token → Bool
  | .gap => true
  | _ => false

/-- Whether a token makes a word count: it belongs to a quoted part or is a character. -/
def counts : Token → Bool
  | .opening | .closing | .char _ => true
  | .code | .gap => false

/-- The character that a token stands for. -/
def char? : Token → Option Char
  | .char c => some c
  | _ => none

end Token

/-- Where a command line ends. -/
inductive Ending where
  | outside
  | insideQuotes
  /-- After a percent sign with nothing after it. -/
  | afterPercent
  /-- Inside quotes, after a backslash with nothing after it. -/
  | afterBackslash
  deriving DecidableEq

/-- The tokens of a text that is read from outside quotes (`false`) or from inside (`true`), and
where it ends. -/
inductive Reading : Bool → List Char → List Token → Ending → Prop
  | outside : Reading false [] [] .outside
  | insideQuotes : Reading true [] [] .insideQuotes
  | opening {rest tokens ending} (h : Reading true rest tokens ending) :
      Reading false ('"' :: rest) (.opening :: tokens) ending
  | closing {rest tokens ending} (h : Reading false rest tokens ending) :
      Reading true ('"' :: rest) (.closing :: tokens) ending
  | percent {quoted rest tokens ending} (h : Reading quoted rest tokens ending) :
      Reading quoted ('%' :: '%' :: rest) (.char '%' :: tokens) ending
  | code {quoted rest tokens ending} {c : Char} (hc : c ≠ '%')
      (h : Reading quoted rest tokens ending) :
      Reading quoted ('%' :: c :: rest) (.code :: tokens) ending
  | afterPercent {quoted} : Reading quoted ['%'] [] .afterPercent
  | gap {rest tokens ending} {c : Char} (hc : Text.isBlank c = true)
      (h : Reading false rest tokens ending) :
      Reading false (c :: rest) (.gap :: tokens) ending
  | escaped {rest tokens ending} {c : Char} (h : Reading true rest tokens ending) :
      Reading true ('\\' :: c :: rest) (.char c :: tokens) ending
  | afterBackslash : Reading true ['\\'] [] .afterBackslash
  | plain {rest tokens ending} {c : Char} (hquote : c ≠ '"') (hpercent : c ≠ '%')
      (hblank : Text.isBlank c = false) (h : Reading false rest tokens ending) :
      Reading false (c :: rest) (.char c :: tokens) ending
  | quoted {rest tokens ending} {c : Char} (hquote : c ≠ '"') (hpercent : c ≠ '%')
      (hbackslash : c ≠ '\\') (h : Reading true rest tokens ending) :
      Reading true (c :: rest) (.char c :: tokens) ending

/-- The words between the blanks, those that do not count included. -/
def stretches (tokens : List Token) : List (List Token) :=
  tokens.splitOnP Token.isGap

/-- The text of a stretch, if it counts. -/
def word? (stretch : List Token) : Option (List Char) :=
  if stretch.any Token.counts then some (stretch.filterMap Token.char?) else none

/-- The texts of the words that count. -/
def wordsOf (tokens : List Token) : List (List Char) :=
  (stretches tokens).filterMap word?

variable {quoted : Bool} {cs : List Char} {tokens more : List Token} {ending : Ending}

/-- Every text is read in some way. -/
theorem exists_reading (quoted : Bool) (cs : List Char) :
    ∃ tokens ending, Reading quoted cs tokens ending := by
  match cs, quoted with
  | [], false => exact ⟨[], _, .outside⟩
  | [], true => exact ⟨[], _, .insideQuotes⟩
  | c :: rest, quoted =>
    by_cases hquote : c = '"'
    · subst hquote
      obtain ⟨tokens, ending, h⟩ := exists_reading (!quoted) rest
      cases quoted with
      | false => exact ⟨_, _, .opening h⟩
      | true => exact ⟨_, _, .closing h⟩
    by_cases hpercent : c = '%'
    · subst hpercent
      match rest with
      | [] => exact ⟨[], _, .afterPercent⟩
      | d :: rest =>
        obtain ⟨tokens, ending, h⟩ := exists_reading quoted rest
        by_cases hd : d = '%'
        · subst hd
          exact ⟨_, _, .percent h⟩
        · exact ⟨_, _, .code hd h⟩
    cases quoted with
    | false =>
      obtain ⟨tokens, ending, h⟩ := exists_reading false rest
      cases hblank : Text.isBlank c with
      | true => exact ⟨_, _, .gap hblank h⟩
      | false => exact ⟨_, _, .plain hquote hpercent hblank h⟩
    | true =>
      by_cases hbackslash : c = '\\'
      · subst hbackslash
        match rest with
        | [] => exact ⟨[], _, .afterBackslash⟩
        | d :: rest =>
          obtain ⟨tokens, ending, h⟩ := exists_reading true rest
          exact ⟨_, _, .escaped h⟩
      · obtain ⟨tokens, ending, h⟩ := exists_reading true rest
        exact ⟨_, _, .quoted hquote hpercent hbackslash h⟩
termination_by cs.length

/-- And in one way only. -/
theorem Reading.unique {tokens' : List Token} {ending' : Ending}
    (h : Reading quoted cs tokens ending) (h' : Reading quoted cs tokens' ending') :
    tokens' = tokens ∧ ending' = ending := by
  have hblank : Text.isBlank '"' = false ∧ Text.isBlank '%' = false := by decide
  induction h generalizing tokens' ending' with
  | outside => cases h'; exact ⟨rfl, rfl⟩
  | insideQuotes => cases h'; exact ⟨rfl, rfl⟩
  | _ => cases h' <;> grind

/-! ## Splitting goes by tokens -/

namespace Splitting

variable {s : Splitting} {rest : List Char} {c : Char}

/-! One equation for each rule of the reading. -/

theorem run_quote : s.run ('"' :: rest) = s.quote.run rest := by
  rw [run.eq_def]
  rfl

theorem run_percent : s.run ('%' :: '%' :: rest) = (s.push '%').run rest := by
  rw [run.eq_def]
  simp

theorem run_code (hc : c ≠ '%') : s.run ('%' :: c :: rest) = s.run rest := by
  rw [run.eq_def]
  simp [hc]

theorem run_gap (h : s.quoted = false) (hc : Text.isBlank c = true) :
    s.run (c :: rest) = s.close.run rest := by
  have hquote : c ≠ '"' := fun heq => absurd hc (by subst heq; decide)
  have hpercent : c ≠ '%' := fun heq => absurd hc (by subst heq; decide)
  rw [run.eq_def]
  simp [hquote, hpercent, h, hc]

theorem run_escaped (h : s.quoted = true) : s.run ('\\' :: c :: rest) = (s.push c).run rest := by
  rw [run.eq_def]
  simp [h]

theorem run_char (hquote : c ≠ '"') (hpercent : c ≠ '%')
    (hbackslash : s.quoted = true → c ≠ '\\')
    (hblank : s.quoted = false → Text.isBlank c = false) :
    s.run (c :: rest) = (s.push c).run rest := by
  rw [run.eq_def]
  cases h : s.quoted
  · simp [hquote, hpercent, hblank h]
  · simp [hquote, hpercent, hbackslash h]

/-- What a token does to what has been split. -/
def take (s : Splitting) : Token → Splitting
  | .opening | .closing => s.quote
  | .char c => s.push c
  | .code => s
  | .gap => s.close

/-- A text is split by its tokens, one after the other. -/
theorem run_of_reading (h : Reading s.quoted cs tokens ending) :
    s.run cs =
      if ending = .outside then some (tokens.foldl take s).close.words.reverse else none := by
  generalize hquoted : s.quoted = quoted at h
  induction h generalizing s with
  | outside => simp [run, hquoted]
  | insideQuotes => simp [run, hquoted]
  | opening _ ih => rw [run_quote, ih (by simp [quote, hquoted]), List.foldl_cons, take]
  | closing _ ih => rw [run_quote, ih (by simp [quote, hquoted]), List.foldl_cons, take]
  | percent _ ih => rw [run_percent, ih (by exact hquoted), List.foldl_cons, take]
  | code hc _ ih => rw [run_code hc, ih hquoted, List.foldl_cons, take]
  | afterPercent => simp [run]
  | gap hc _ ih => rw [run_gap hquoted hc, ih (by exact hquoted), List.foldl_cons, take]
  | escaped _ ih => rw [run_escaped hquoted, ih (by exact hquoted), List.foldl_cons, take]
  | afterBackslash => simp [run, hquoted]
  | plain hquote hpercent hblank _ ih =>
    rw [run_char hquote hpercent (by simp [hquoted]) fun _ => hblank, ih (by exact hquoted),
      List.foldl_cons, take]
  | quoted hquote hpercent hbackslash _ ih =>
    rw [run_char hquote hpercent (fun _ => hbackslash) (by simp [hquoted]), ih (by exact hquoted),
      List.foldl_cons, take]

/-- The word at hand goes on with the first stretch of what follows. -/
theorem words_foldl_take {first : List Token} {others : List (List Token)} (s : Splitting)
    (h : stretches tokens = first :: others) :
    (tokens.foldl take s).close.words.reverse =
      s.words.reverse ++
        ((if s.started || first.any Token.counts then
          [s.word.reverse ++ first.filterMap Token.char?] else []) ++ others.filterMap word?) := by
  induction tokens generalizing s first others with
  | nil =>
    obtain ⟨rfl, rfl⟩ : first = [] ∧ others = [] := by simpa [stretches, eq_comm] using h
    cases hstarted : s.started <;> simp [close, hstarted]
  | cons token tokens ih =>
    obtain ⟨first', others', h'⟩ := List.exists_cons_of_ne_nil
      (List.splitOnP_ne_nil Token.isGap tokens)
    rw [stretches, List.splitOnP_cons_eq_if_modifyHead, h'] at h
    rw [List.foldl_cons, ih _ h']
    cases token with
    | gap =>
      -- the word at hand is complete, and the next one begins with nothing
      obtain ⟨rfl, rfl⟩ : first = [] ∧ others = first' :: others' := by
        simpa [Token.isGap, eq_comm] using h
      have hnext : (first' :: others').filterMap word? =
          (if first'.any Token.counts then [first'.filterMap Token.char?] else []) ++
            others'.filterMap word? := by
        rw [List.filterMap_cons, word?]
        cases first'.any Token.counts <;> rfl
      rw [hnext]
      cases hstarted : s.started <;> simp [take, close, hstarted]
    | opening | closing | code | char =>
      obtain ⟨rfl, rfl⟩ : first = _ :: first' ∧ others = others' := by
        simpa [Token.isGap, eq_comm] using h
      simp [take, quote, push, Token.counts, Token.char?, List.filterMap_cons]

end Splitting

/-! ## Words -/

theorem wordsOf_append_gap : wordsOf (tokens ++ .gap :: more) = wordsOf tokens ++ wordsOf more := by
  rw [wordsOf, stretches, List.splitOnP_append_cons tokens more rfl, List.filterMap_append]
  rfl

theorem not_gap_of_mem_stretches {stretch : List Token} (h : stretch ∈ stretches tokens) :
    ∀ token ∈ stretch, token.isGap = false :=
  Text.of_mem_splitOnP h

/-- No word counts if there is nothing but codes in every stretch. -/
theorem wordsOf_eq_nil_iff :
    wordsOf tokens = [] ↔ ∀ stretch ∈ stretches tokens, ∀ token ∈ stretch, token = .code := by
  rw [wordsOf, List.filterMap_eq_nil_iff]
  refine forall₂_congr fun stretch hstretch => ?_
  have hword : word? stretch = none ↔ ∀ token ∈ stretch, token.counts = false := by
    simp [word?]
  rw [hword]
  refine forall₂_congr fun token htoken => ?_
  have hgap := not_gap_of_mem_stretches hstretch token htoken
  cases token <;> simp_all [Token.counts, Token.isGap]

theorem words?_of_reading (h : Reading false cs tokens ending) :
    words? cs = if ending = .outside then some (wordsOf tokens) else none := by
  obtain ⟨first, others, hstretches⟩ := List.exists_cons_of_ne_nil
    (List.splitOnP_ne_nil Token.isGap tokens)
  have hwords := Splitting.words_foldl_take {} hstretches
  rw [words?, Splitting.run_of_reading h, hwords, wordsOf, stretches, hstretches,
    List.filterMap_cons, word?]
  cases first.any Token.counts <;> rfl

/-- A command line is split into the words that count, if there are any and it ends outside
quotes. -/
theorem command?_of_reading {exec : String} (h : Reading false exec.toList tokens ending) :
    command? exec =
      if ending = .outside ∧ wordsOf tokens ≠ [] then some ((wordsOf tokens).map String.ofList)
      else none := by
  rw [command?, words?_of_reading h]
  by_cases hending : ending = .outside
  · rw [if_pos hending]
    cases hwords : wordsOf tokens with
    | nil => simp
    | cons first others => simp [hending]
  · simp [hending]

/-- How a command line is understood: it has one reading, and by that reading it is refused or
split. -/
structure Understood (exec : String) (tokens : List Token) (ending : Ending) : Prop where
  reading : Reading false exec.toList tokens ending
  only : ∀ tokens' ending', Reading false exec.toList tokens' ending' →
    tokens' = tokens ∧ ending' = ending
  /-- It is refused if a token is missing something at the end, or if there are only codes. -/
  refused : command? exec = none ↔
    ending ≠ .outside ∨ ∀ stretch ∈ stretches tokens, ∀ token ∈ stretch, token = .code
  /-- Otherwise it is the words that count, in their order, and there is one at least. -/
  words : ∀ words, command? exec = some words →
    words = (wordsOf tokens).map String.ofList ∧ words ≠ []

theorem exists_understood (exec : String) : ∃ tokens ending, Understood exec tokens ending := by
  obtain ⟨tokens, ending, h⟩ := exists_reading false exec.toList
  refine ⟨tokens, ending, h, fun _ _ h' => h.unique h', ?_, fun words hwords => ⟨?_, ?_⟩⟩
  · rw [command?_of_reading h, ← wordsOf_eq_nil_iff]
    simp [Decidable.imp_iff_not_or]
  · rw [command?_of_reading h] at hwords
    split at hwords
    · exact (Option.some.inj hwords).symm
    · cases hwords
  · exact command?_ne_nil hwords

/-- A text that ends outside quotes, and in which no token is missing anything. -/
def Whole (text : String) : Prop := ∃ tokens, Reading false text.toList tokens .outside

theorem Reading.append {cs' : List Char} {ending' : Ending}
    (h : Reading quoted cs tokens .outside) (h' : Reading false cs' more ending') :
    Reading quoted (cs ++ cs') (tokens ++ more) ending' := by
  generalize hending : Ending.outside = ending at h
  induction h with
  | outside => exact h'
  | insideQuotes | afterPercent | afterBackslash => cases hending
  | opening _ ih => exact .opening (ih hending)
  | closing _ ih => exact .closing (ih hending)
  | percent _ ih => exact .percent (ih hending)
  | code hc _ ih => exact .code hc (ih hending)
  | gap hc _ ih => exact .gap hc (ih hending)
  | escaped _ ih => exact .escaped (ih hending)
  | plain hquote hpercent hblank _ ih => exact .plain hquote hpercent hblank (ih hending)
  | quoted hquote hpercent hbackslash _ ih =>
    exact .quoted hquote hpercent hbackslash (ih hending)

/-- The words of two whole texts with a blank between them are those of the one and then those
of the other. A text without a command has no words here. -/
theorem command?_append {text text' : String} {blank : Char} (h : Whole text) (h' : Whole text')
    (hblank : Text.isBlank blank = true) :
    (command? (text ++ String.singleton blank ++ text')).getD [] =
      (command? text).getD [] ++ (command? text').getD [] := by
  obtain ⟨tokens, hreading⟩ := h
  obtain ⟨tokens', hreading'⟩ := h'
  have hboth := hreading.append (.gap hblank hreading')
  have hlist : (text ++ String.singleton blank ++ text').toList =
      text.toList ++ blank :: text'.toList := by simp
  have hwords : ∀ {text : String} {tokens}, Reading false text.toList tokens .outside →
      (command? text).getD [] = (wordsOf tokens).map String.ofList := by
    intro text tokens h
    rw [command?_of_reading h]
    cases hnil : wordsOf tokens <;> simp
  rw [hwords hreading, hwords hreading', hwords (hlist ▸ hboth), wordsOf_append_gap,
    List.map_append]

/-- **A command line is split by its grammar.** Every text has one reading, which says whether
it is refused and what its words are; whole texts with a blank between them are split one after
the other; and a program that is started has a name. -/
theorem split_by_grammar :
    (∀ exec, ∃ tokens ending, Understood exec tokens ending) ∧
    (∀ (text text' : String) (blank : Char), Whole text → Whole text' →
      Text.isBlank blank = true →
      (command? (text ++ String.singleton blank ++ text')).getD [] =
        (command? text).getD [] ++ (command? text').getD []) ∧
    (∀ (manifest : Manifest) (networkId clientId : Option String) (command : Command),
      manifest.command networkId clientId = .ok command → command.arguments ≠ []) := by
  refine ⟨exists_understood, fun _ _ _ => command?_append, ?_⟩
  intro manifest networkId clientId command h
  rw [Manifest.command] at h
  split at h
  · cases h
  · split at h
    · cases h
    · next arguments hcommand =>
      cases h
      exact command?_ne_nil hcommand

/-- A word and an argument that is empty. -/
theorem split_by_grammar_pair :
    Whole "a" ∧ Whole "\"\"" ∧ Text.isBlank ' ' = true ∧
      (command? ("a" ++ String.singleton ' ' ++ "\"\"")).getD [] = ["a", ""] := by
  have hword : Whole "a" :=
    ⟨[.char 'a'], .plain (by decide) (by decide) (by decide) .outside⟩
  have hquoted : Whole "\"\"" := ⟨[.opening, .closing], .opening (.closing .outside)⟩
  have hblank : Text.isBlank ' ' = true := by decide
  exact ⟨hword, hquoted, hblank, split_by_grammar.2.1 "a" "\"\"" ' ' hword hquoted hblank⟩

end Xsmp.Exec
