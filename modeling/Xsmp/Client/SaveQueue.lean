import Xsmp.Message.Save

/-!
# Saves of one client

A client works on one save at a time, and at most one more waits for it. A
request that finds both places taken is dropped.
-/

namespace Xsmp

/-- The saves that a client has been asked for. -/
structure SaveQueue where
  /-- The save the client is working on. -/
  current : Option SaveType := none
  /-- The save that is asked for next. -/
  next : Option SaveType := none
  deriving DecidableEq

namespace SaveQueue

def empty : SaveQueue := {}

variable (queue : SaveQueue)

/-- Ask for a save. The answer is the save to ask the client for now. -/
def request (type : SaveType) : Option SaveType × SaveQueue :=
  match queue.next, queue.current with
  | some _, _ => (none, queue)
  | none, some current => (none, { current := some current, next := some type })
  | none, none => (some type, { current := some type })

/-- What the client says when it is done: the save that this ends, and the save to
ask the client for now. -/
def complete : (Option SaveType × Option SaveType) × SaveQueue :=
  ((queue.current, queue.next), { current := queue.next })

end SaveQueue

end Xsmp
