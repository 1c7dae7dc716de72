/-!
# Quoting for the shell

A command is shown as a line that a shell splits into the same arguments.
Arguments of harmless characters stand as they are; every other one is put in
single quotes, and a single quote inside it is written by closing the quotes,
escaping the character with a backslash and opening the quotes again.
-/

namespace Xsmp.Text

/-- Whether a character has no meaning to the shell. -/
def isPlain (c : Char) : Bool := c.isAlphanum || "-_=:./".toList.contains c

/-- The inside of a quoted argument. -/
def escapeQuotes (cs : List Char) : List Char :=
  cs.flatMap fun c => if c = '\'' then ['\'', '\\', '\'', '\''] else [c]

def quoteArgument (cs : List Char) : List Char :=
  if !cs.isEmpty && cs.all isPlain then cs else '\'' :: (escapeQuotes cs ++ ['\''])

def quoteCommand (arguments : List String) : String :=
  String.ofList ([' '].intercalate (arguments.map fun a => quoteArgument a.toList))

end Xsmp.Text
