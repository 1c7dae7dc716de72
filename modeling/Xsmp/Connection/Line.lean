import Xsmp.Text.Blank
import Xsmp.Text.Utf8

/-!
# Lines

A connection carries one message per line. A line ends with a line feed, and a
carriage return before it does not belong to it; what is left at the end of the
input is a line too. Bytes are taken one at a time, so it does not matter how
they arrive. A line may not grow without bound: too long a line spoils the rest
of the input.
-/

namespace Xsmp

/-- The longest line, in bytes before its line feed. -/
def maxLine : Nat := 65536

/-- The byte that ends a line. -/
def lineFeed : UInt8 := 10

/-- The byte that may stand before it. -/
def carriageReturn : UInt8 := 13

/-- What has been read of the line at hand. -/
structure LineReader where
  /-- Its bytes, the last one first. -/
  kept : Bytes := []
  length : Nat := 0
  deriving DecidableEq

namespace LineReader

/-- The line at hand when a line feed ends it. -/
def line (reader : LineReader) : Bytes :=
  match reader.kept with
  | [] => []
  | last :: before => if last = carriageReturn then before.reverse else (last :: before).reverse

/-- The line at hand when the input ends. Nothing is no line. -/
def last? (reader : LineReader) : Option Bytes :=
  if reader.kept.isEmpty then none else some reader.kept.reverse

/-- Read bytes; `done` are the lines before them, the last one first. The lines come with
the reader for what follows, or without one if a line is too long. -/
def feedAfter (done : List Bytes) (reader : LineReader) : Bytes → List Bytes × Option LineReader
  | [] => (done.reverse, some reader)
  | b :: rest =>
    if b = lineFeed then feedAfter (reader.line :: done) {} rest
    else if maxLine ≤ reader.length then (done.reverse, none)
    else feedAfter done { kept := b :: reader.kept, length := reader.length + 1 } rest

/-- Read bytes: the lines they complete, and the reader for what follows. -/
def feed (reader : LineReader) (bytes : Bytes) : List Bytes × Option LineReader :=
  feedAfter [] reader bytes

end LineReader

/-- Whether a line is to be passed over. -/
def isBlankLine (line : String) : Bool := line.toList.all Text.isBlank

end Xsmp
