import Xsmp.Text.Blank

/-!
# Command lines

The command line of a manifest is split into a program and its arguments.
Blanks separate words, double quotes keep them together, and inside quotes a
backslash takes the next character as it is. A percent sign with another
character is a code for files that are never passed, so it stands for nothing,
except that two percent signs stand for one.
-/

namespace Xsmp.Exec

/-- How far a command line has been split. -/
structure Splitting where
  words : List (List Char) := []
  /-- The characters of the word at hand, the last one first. -/
  word : List Char := []
  /-- Whether the word at hand has anything of its own, be it empty quotes. -/
  started : Bool := false
  quoted : Bool := false

namespace Splitting

/-- A quote begins or ends a quoted part. -/
def quote (s : Splitting) : Splitting := { s with quoted := !s.quoted, started := true }

/-- A character stands for itself. -/
def push (s : Splitting) (c : Char) : Splitting := { s with word := c :: s.word, started := true }

/-- The word at hand ends. -/
def close (s : Splitting) : Splitting :=
  { s with
    words := if s.started then s.word.reverse :: s.words else s.words
    word := []
    started := false }

/-- Split the rest of a command line. There is no result if it ends inside quotes,
after a lone percent sign or after a lone backslash. -/
def run (s : Splitting) : List Char → Option (List (List Char))
  | [] => if s.quoted then none else some s.close.words.reverse
  | c :: rest =>
    if c = '"' then s.quote.run rest
    else if c = '\\' ∧ s.quoted then
      match rest with
      | [] => none
      | d :: rest => (s.push d).run rest
    else if c = '%' then
      match rest with
      | [] => none
      | d :: rest => if d = '%' then (s.push d).run rest else s.run rest
    else if Text.isBlank c ∧ ¬s.quoted then s.close.run rest
    else (s.push c).run rest

end Splitting

def words? (exec : List Char) : Option (List (List Char)) := Splitting.run {} exec

/-- The program of a command line and its arguments. There has to be a program. -/
def command? (exec : String) : Option (List String) :=
  match words? exec.toList with
  | some [] => none
  | some words => some (words.map String.ofList)
  | none => none

theorem command?_ne_nil {exec : String} {words : List String} (h : command? exec = some words) :
    words ≠ [] := by
  unfold command? at h
  split at h
  · simp at h
  · rename_i ws hne _
    obtain rfl := Option.some.inj h
    simpa using hne
  · simp at h

end Xsmp.Exec
