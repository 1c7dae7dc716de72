import Xsmp.Text.Numeral
import Xsmp.Text.Utf8

/-!
# Bytes in hexadecimal

Bytes are shown as two hexadecimal digits each.
-/

namespace Xsmp.Text

def hexOfBytes (bytes : Bytes) : String :=
  String.ofList (bytes.flatMap fun b => hexadecimal 2 b.toNat)

/-- The value of a hexadecimal digit of either case. -/
def hexDigit? (c : Char) : Option Nat :=
  if c.isDigit then some (c.toNat - '0'.toNat)
  else
    let n := c.toLower.toNat
    if 'a'.toNat ≤ n && n ≤ 'f'.toNat then some (n - 'a'.toNat + 10) else none

/-- The bytes that digits stand for; `done` are those before them, the last one first. -/
def bytesOfHexAfter? (done : Bytes) : List Char → Option Bytes
  | [] => some done.reverse
  | [_] => none
  | high :: low :: rest =>
    match hexDigit? high, hexDigit? low with
    | some high, some low => bytesOfHexAfter? (UInt8.ofNat (high * 16 + low) :: done) rest
    | _, _ => none

def bytesOfHex? (digits : String) : Option Bytes := bytesOfHexAfter? [] digits.toList

end Xsmp.Text
