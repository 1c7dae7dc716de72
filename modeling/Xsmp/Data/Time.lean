/-!
# Time

Two clocks matter: the wall clock, which may be set to any time, and a clock
that only moves forward, on which deadlines are measured.
-/

namespace Xsmp

/-- A moment of the wall clock, in nanoseconds since the epoch. -/
abbrev Timestamp := Int

/-- A moment of the clock that only moves forward, in milliseconds. -/
abbrev Moment := Nat

def nanosPerSecond : Nat := 1000000000

/-- The last moment that can be represented: the seconds are a signed number of 64 bits. -/
def lastMoment : Moment := 0x7fffffffffffffff * 1000 + 999

/-- The moment `timeout` milliseconds from now. A deadline that cannot be represented is
no deadline. -/
def deadlineAfter (now : Moment) (timeout : Nat) : Option Moment :=
  if now + timeout ≤ lastMoment then some (now + timeout) else none

def isDue (now : Moment) (deadline : Option Moment) : Bool := deadline.any (· ≤ now)

end Xsmp
