import Xsmp.Property.Store

/-!
# A quoted command, as a shell reads it

A shell reads a command as tokens. Outside quotes a blank or a line feed separates words, a single
quote begins a quoted part and a backslash takes the next character as it is; inside quotes
everything stands for itself up to the next single quote. A word is what stands between two
gaps, and it may be empty if it has quotes.

Arguments that are written as a command are read as those arguments, so no two lists of arguments
are written alike. Outside quotes there is nothing in it that a shell could take for anything
else.
-/

namespace Xsmp.Shell

/-! ## How a shell reads -/

/-- What a command is made of. -/
inductive Token where
  /-- A single quote, where a quoted part begins or ends. -/
  | mark
  /-- A character inside quotes. -/
  | quoted (c : Char)
  /-- A character after a backslash. -/
  | escaped (c : Char)
  /-- A character with neither. -/
  | bare (c : Char)
  /-- A separator of words. -/
  | gap
  deriving DecidableEq

/-- The character that a token stands for. -/
def Token.char? : Token → Option Char
  | .quoted c | .escaped c | .bare c => some c
  | .mark | .gap => none

/-- Whether a character separates words outside quotes. -/
def isSeparator (c : Char) : Bool := c == ' ' || c == '\t' || c == '\n'

/-- Read a command from outside quotes (`false`) or from inside (`true`). It must not end inside
quotes or after a backslash. -/
def tokens? : Bool → List Char → Option (List Token)
  | false, [] => some []
  | true, [] => none
  | true, c :: rest =>
    if c = '\'' then (tokens? false rest).map (.mark :: ·)
    else (tokens? true rest).map (.quoted c :: ·)
  | false, c :: rest =>
    if c = '\'' then (tokens? true rest).map (.mark :: ·)
    else if c = '\\' then
      match rest with
      | [] => none
      | d :: rest => (tokens? false rest).map (.escaped d :: ·)
    else if isSeparator c then (tokens? false rest).map (.gap :: ·)
    else (tokens? false rest).map (.bare c :: ·)

/-- The words that the tokens of a command make. -/
def wordsOf (tokens : List Token) : List (List Char) :=
  ((tokens.splitOn .gap).filter (!·.isEmpty)).map (·.filterMap Token.char?)

/-- The words of a command, if a shell can read it. -/
def words? (command : String) : Option (List String) :=
  (tokens? false command.toList).map fun tokens => (wordsOf tokens).map String.ofList

/-- The characters that no shell takes for anything but themselves. -/
def Harmless (c : Char) : Prop :=
  ('a' ≤ c ∧ c ≤ 'z') ∨ ('A' ≤ c ∧ c ≤ 'Z') ∨ ('0' ≤ c ∧ c ≤ '9') ∨
    c ∈ ['-', '_', '=', ':', '.', '/']

instance (c : Char) : Decidable (Harmless c) := inferInstanceAs (Decidable (_ ∨ _))

/-- Outside quotes only harmless characters stand bare, and only single quotes are escaped. -/
def Token.Guarded : Token → Prop
  | .bare c => Harmless c
  | .escaped c => c = '\''
  | .mark | .quoted _ | .gap => True

variable {c : Char} {argument : List Char}

/-! One equation for each rule. -/

theorem tokens?_open (rest : List Char) :
    tokens? false ('\'' :: rest) = (tokens? true rest).map (.mark :: ·) := by
  rw [tokens?.eq_def]
  rfl

theorem tokens?_close (rest : List Char) :
    tokens? true ('\'' :: rest) = (tokens? false rest).map (.mark :: ·) := by
  rw [tokens?.eq_def]
  rfl

theorem tokens?_inside (h : c ≠ '\'') (rest : List Char) :
    tokens? true (c :: rest) = (tokens? true rest).map (.quoted c :: ·) := by
  rw [tokens?.eq_def]
  exact if_neg h

theorem tokens?_backslash (c : Char) (rest : List Char) :
    tokens? false ('\\' :: c :: rest) = (tokens? false rest).map (.escaped c :: ·) := by
  rw [tokens?.eq_def]
  rfl

theorem tokens?_space (rest : List Char) :
    tokens? false (' ' :: rest) = (tokens? false rest).map (.gap :: ·) := by
  rw [tokens?.eq_def]
  rfl

/-- A harmless character stands for itself outside quotes. -/
theorem tokens?_harmless (h : Harmless c) (rest : List Char) :
    tokens? false (c :: rest) = (tokens? false rest).map (.bare c :: ·) := by
  have hne : ∀ d, ¬ Harmless d → c ≠ d := by
    intro d hd heq
    exact hd (heq ▸ h)
  have hseparator : isSeparator c = false := by
    simp [isSeparator, hne ' ' (by decide), hne '\t' (by decide), hne '\n' (by decide)]
  rw [tokens?.eq_def]
  simp only [if_neg (hne '\'' (by decide)), if_neg (hne '\\' (by decide)), hseparator,
    Bool.false_eq_true, if_false]

/-- Quotes and backslashes may stand anywhere in a word. -/
example : words? "a\\ b'c d'\t''" = some ["a bc d", ""] := by cbv

/-! ## One argument -/

theorem harmless_of_isPlain (h : Text.isPlain c = true) : Harmless c := by
  have hrange : ∀ low high : UInt32, (decide (low ≤ c.val) && decide (c.val ≤ high)) = true →
      low ≤ c.val ∧ c.val ≤ high := by
    intro low high hrange
    simpa using hrange
  have hkind : ((c.isUpper || c.isLower) || c.isDigit) = true ∨
      ['-', '_', '=', ':', '.', '/'].contains c = true := (Bool.or_eq_true _ _).mp h
  rcases hkind with hkind | hmark
  · rw [Bool.or_eq_true, Bool.or_eq_true] at hkind
    rcases hkind with (hupper | hlower) | hdigit
    · exact .inr (.inl (of_decide_eq_true hupper))
    · exact .inl (hrange _ _ hlower)
    · exact .inr (.inr (.inl (hrange _ _ hdigit)))
  · exact .inr (.inr (.inr (List.contains_iff_mem.mp hmark)))

/-- The tokens of a character inside quotes: a single quote is escaped between two marks. -/
def quotedTokens (c : Char) : List Token :=
  if c = '\'' then [.mark, .escaped c, .mark] else [.quoted c]

/-- The tokens of an argument. -/
def argumentTokens (argument : List Char) : List Token :=
  if !argument.isEmpty && argument.all Text.isPlain then argument.map .bare
  else .mark :: (argument.flatMap quotedTokens ++ [.mark])

theorem tokens?_plain (h : ∀ c ∈ argument, Harmless c) (rest : List Char) :
    tokens? false (argument ++ rest) = (tokens? false rest).map (argument.map .bare ++ ·) := by
  induction argument with
  | nil => simp
  | cons c argument ih =>
    rw [List.forall_mem_cons] at h
    rw [List.cons_append, tokens?_harmless h.1, ih h.2, Option.map_map]
    rfl

/-- Inside quotes an argument is read up to the quote at its end. -/
theorem tokens?_escapeQuotes (argument rest : List Char) :
    tokens? true (Text.escapeQuotes argument ++ '\'' :: rest) =
      (tokens? false rest).map (argument.flatMap quotedTokens ++ .mark :: ·) := by
  induction argument with
  | nil => rfl
  | cons c argument ih =>
    have hcons : Text.escapeQuotes (c :: argument) =
        (if c = '\'' then ['\'', '\\', '\'', '\''] else [c]) ++ Text.escapeQuotes argument := rfl
    rw [hcons, List.flatMap_cons, quotedTokens]
    split
    · next hquote =>
      -- out of the quotes, past the backslash and into quotes again
      subst hquote
      show tokens? true
          ('\'' :: '\\' :: '\'' :: '\'' :: (Text.escapeQuotes argument ++ '\'' :: rest)) = _
      rw [tokens?_close, tokens?_backslash, tokens?_open, ih]
      simp only [Option.map_map]
      rfl
    · next hquote =>
      rw [List.singleton_append, List.cons_append, tokens?_inside hquote, ih, Option.map_map]
      rfl

/-- **An argument is read by itself, whatever follows it.** -/
theorem tokens?_quoteArgument (argument rest : List Char) :
    tokens? false (Text.quoteArgument argument ++ rest) =
      (tokens? false rest).map (argumentTokens argument ++ ·) := by
  rw [Text.quoteArgument, argumentTokens]
  split
  · next hplain =>
    rw [Bool.and_eq_true, List.all_eq_true] at hplain
    exact tokens?_plain (fun c hc => harmless_of_isPlain (hplain.2 c hc)) rest
  · simp only [List.cons_append, List.append_assoc, List.nil_append]
    rw [tokens?_open, tokens?_escapeQuotes, Option.map_map]
    rfl

/-! ## What the tokens of an argument stand for -/

theorem guarded_argumentTokens (argument : List Char) :
    ∀ token ∈ argumentTokens argument, token.Guarded ∧ token ≠ .gap := by
  intro token htoken
  unfold argumentTokens at htoken
  split at htoken
  · next hplain =>
    rw [Bool.and_eq_true, List.all_eq_true] at hplain
    obtain ⟨c, hc, rfl⟩ := List.mem_map.mp htoken
    exact ⟨harmless_of_isPlain (hplain.2 c hc), nofun⟩
  · rcases List.mem_cons.mp htoken with rfl | htoken
    · exact ⟨trivial, nofun⟩
    rcases List.mem_append.mp htoken with htoken | htoken
    · obtain ⟨c, -, hc⟩ := List.mem_flatMap.mp htoken
      unfold quotedTokens at hc
      split at hc
      · next hquote =>
        simp only [List.mem_cons, List.not_mem_nil, or_false] at hc
        rcases hc with rfl | rfl | rfl
        · exact ⟨trivial, nofun⟩
        · exact ⟨hquote, nofun⟩
        · exact ⟨trivial, nofun⟩
      · rw [List.mem_singleton.mp hc]
        exact ⟨trivial, nofun⟩
    · rw [List.mem_singleton.mp htoken]
      exact ⟨trivial, nofun⟩

theorem argumentTokens_ne_nil (argument : List Char) : argumentTokens argument ≠ [] := by
  unfold argumentTokens
  split
  · next hplain =>
    rw [Bool.and_eq_true] at hplain
    simpa using hplain.1
  · exact List.cons_ne_nil _ _

theorem chars_argumentTokens (argument : List Char) :
    (argumentTokens argument).filterMap Token.char? = argument := by
  have hquoted : (argument.flatMap quotedTokens).filterMap Token.char? = argument := by
    induction argument with
    | nil => rfl
    | cons c argument ih =>
      have hc : (quotedTokens c).filterMap Token.char? = [c] := by
        unfold quotedTokens
        split <;> rfl
      rw [List.flatMap_cons, List.filterMap_append, hc, ih, List.singleton_append]
  unfold argumentTokens
  split
  · rw [List.filterMap_map]
    exact List.filterMap_some
  · rw [List.filterMap_cons, List.filterMap_append, hquoted]
    exact List.append_nil argument

/-! ## Commands -/

/-- The tokens of arguments with gaps between them. -/
def commandTokens (arguments : List (List Char)) : List Token :=
  [.gap].intercalate (arguments.map argumentTokens)

theorem tokens?_command (arguments : List (List Char)) :
    tokens? false ([' '].intercalate (arguments.map Text.quoteArgument)) =
      some (commandTokens arguments) := by
  induction arguments with
  | nil => rfl
  | cons argument arguments ih =>
    cases arguments with
    | nil =>
      have hread := tokens?_quoteArgument argument []
      simpa [commandTokens, tokens?] using hread
    | cons next arguments =>
      have hgap : tokens? false (' ' :: [' '].intercalate
          ((next :: arguments).map Text.quoteArgument)) =
            some (.gap :: commandTokens (next :: arguments)) := by
        rw [tokens?_space, ih]
        rfl
      have hread := tokens?_quoteArgument argument
        (' ' :: [' '].intercalate ((next :: arguments).map Text.quoteArgument))
      rw [hgap] at hread
      simpa [commandTokens, List.intercalate_cons_cons] using hread

theorem wordsOf_commandTokens (arguments : List (List Char)) :
    wordsOf (commandTokens arguments) = arguments := by
  by_cases hnil : arguments = []
  · subst hnil
    rfl
  have hgap : ∀ tokens ∈ arguments.map argumentTokens, Token.gap ∉ tokens := by
    intro tokens htokens hmem
    obtain ⟨argument, -, rfl⟩ := List.mem_map.mp htokens
    exact (guarded_argumentTokens argument _ hmem).2 rfl
  have hsplit : (commandTokens arguments).splitOn .gap = arguments.map argumentTokens :=
    List.splitOn_intercalate _ hgap (by simpa using hnil)
  have hwords : (arguments.map argumentTokens).filter (!·.isEmpty) =
      arguments.map argumentTokens := by
    refine List.filter_eq_self.mpr fun tokens htokens => ?_
    obtain ⟨argument, -, rfl⟩ := List.mem_map.mp htokens
    simpa using argumentTokens_ne_nil argument
  have hchars : (List.filterMap Token.char?) ∘ argumentTokens = id :=
    funext chars_argumentTokens
  rw [wordsOf, hsplit, hwords, List.map_map, hchars, List.map_id]

theorem guarded_commandTokens (arguments : List (List Char)) :
    ∀ token ∈ commandTokens arguments, token.Guarded := by
  induction arguments with
  | nil => nofun
  | cons argument arguments ih =>
    cases arguments with
    | nil => simpa [commandTokens] using fun token h => (guarded_argumentTokens argument token h).1
    | cons next arguments =>
      have hcons : commandTokens (argument :: next :: arguments) =
          argumentTokens argument ++ .gap :: commandTokens (next :: arguments) := by
        simp [commandTokens, List.intercalate_cons_cons]
      rw [hcons]
      intro token htoken
      rcases List.mem_append.mp htoken with htoken | htoken
      · exact (guarded_argumentTokens argument token htoken).1
      rcases List.mem_cons.mp htoken with rfl | htoken
      · trivial
      · exact ih token htoken

theorem tokens?_quoteCommand (arguments : List String) :
    tokens? false (Text.quoteCommand arguments).toList =
      some (commandTokens (arguments.map String.toList)) := by
  have hread := tokens?_command (arguments.map String.toList)
  simpa [Text.quoteCommand, Function.comp_def] using hread

theorem words?_quoteCommand (arguments : List String) :
    words? (Text.quoteCommand arguments) = some arguments := by
  rw [words?, tokens?_quoteCommand, Option.map_some, wordsOf_commandTokens]
  simp [Function.comp_def]

theorem bind_words?_quoteCommand (arguments : Option (List String)) :
    (arguments.map Text.quoteCommand).bind words? = arguments := by
  cases arguments with
  | none => rfl
  | some arguments => exact words?_quoteCommand arguments

/-- **A shell reads a command as the arguments it was written from**, be it any command or one that
a client has set. No two lists of arguments are written alike, and whatever a shell could take
for something else is inside quotes, but for single quotes, which are escaped. -/
theorem words?_of_written :
    (∀ arguments : List String,
      words? (Text.quoteCommand arguments) = some arguments ∧
      ∃ tokens, tokens? false (Text.quoteCommand arguments).toList = some tokens ∧
        ∀ token ∈ tokens, token.Guarded) ∧
    (∀ arguments arguments' : List String,
      Text.quoteCommand arguments = Text.quoteCommand arguments' ↔ arguments = arguments') ∧
    ∀ store : PropertyStore,
      store.restartCommand?.bind words? = store.restartArguments? ∧
      store.discardCommand?.bind words? = store.texts? Property.discardCommandName := by
  refine ⟨fun arguments => ⟨words?_quoteCommand arguments, _, tokens?_quoteCommand arguments,
    guarded_commandTokens _⟩, fun arguments arguments' => ⟨fun heq => ?_, congrArg _⟩,
    fun store => ⟨?_, ?_⟩⟩
  · have hwords := words?_quoteCommand arguments
    rw [heq, words?_quoteCommand] at hwords
    exact (Option.some.inj hwords).symm
  · exact bind_words?_quoteCommand store.restartArguments?
  · exact bind_words?_quoteCommand (store.texts? Property.discardCommandName)

end Xsmp.Shell
