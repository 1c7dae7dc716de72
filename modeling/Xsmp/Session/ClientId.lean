import Xsmp.Data.Time
import Xsmp.Text.Numeral

/-!
# Client identifiers

A client keeps its identifier from one session to the next. A new one is made
of the version and address type `10`, two random numbers in place of an
address, the time, the process number of the session manager and a sequence
number. Every part is padded to a least width, and only the last one wraps.
-/

namespace Xsmp

structure ClientIds where
  rand1 : UInt32
  rand2 : UInt32
  pid : UInt32
  sequence : Fin 10000 := 0
  deriving DecidableEq

namespace ClientIds

/-- A source that has made no identifier yet. -/
def ofSeeds (rand1 rand2 pid : UInt32) : ClientIds := { rand1, rand2, pid }

/-- The identifier for a moment. A time before the epoch counts as the epoch. -/
def text (ids : ClientIds) (now : Timestamp) : List Char :=
  let time := now.toNat
  ['1', '0'] ++ Text.hexadecimal 4 ids.rand1.toNat ++ Text.hexadecimal 4 ids.rand2.toNat
    ++ Text.decimal 10 (time / nanosPerSecond)
    ++ Text.decimal 3 (time % nanosPerSecond / 1000)
    ++ Text.decimal 10 ids.pid.toNat ++ Text.decimal 4 ids.sequence

/-- Move on to the next sequence number, which wraps. -/
def advance (ids : ClientIds) : ClientIds := { ids with sequence := ids.sequence + 1 }

def mint (ids : ClientIds) (now : Timestamp) : String × ClientIds :=
  (String.ofList (ids.text now), ids.advance)

end ClientIds

end Xsmp
