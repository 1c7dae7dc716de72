import Xsmp.Text.Extender
import Xsmp.Text.Numeral
import Xsmp.Text.Unseen

/-!
# Text in logs

Text that a log shows stands in double quotes. Quotes and backslashes inside it
are marked by a backslash, and so are characters that would not be seen, or
would change the look of the one before them.
-/

namespace Xsmp.Text

/-- The voiced sound marks of half width. They count as extending, but they are letters
that stand beside the one before them. -/
def isSoundMark (c : Char) : Bool := c == '\uff9e' || c == '\uff9f'

/-- The fillers, letters that stand for a part that a syllable lacks and show nothing. -/
def isFiller (c : Char) : Bool :=
  c == '\u115f' || c == '\u1160' || c == '\u3164' || c == '\uffa0'

/-- Whether a character is shown by its code point. -/
def isHidden (c : Char) : Bool := isUnseen c || isFiller c || (isExtender c && !isSoundMark c)

def quotedChar (c : Char) : List Char :=
  if c = '"' then ['\\', '"']
  else if c = '\\' then ['\\', '\\']
  else if c = '\n' then ['\\', 'n']
  else if c = '\r' then ['\\', 'r']
  else if c = '\t' then ['\\', 't']
  else if c = '\x00' then ['\\', '0']
  else if isHidden c then ['\\', 'u', '\x7b'] ++ hexadecimal 1 c.toNat ++ ['\x7d']
  else [c]

/-- A text as a log shows it. -/
def quoted (s : String) : String :=
  "\"" ++ String.ofList (s.toList.flatMap quotedChar) ++ "\""

end Xsmp.Text
