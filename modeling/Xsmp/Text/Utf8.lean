/-!
# UTF-8

Text travels as bytes. The decoder is a state machine over single bytes, so it
can be fed in any chunks: each byte either completes a character, is kept for
later, or shows that the bytes kept so far are no character. In the last case
the kept bytes count as one fault, and the byte that showed it is looked at
afresh unless it was itself the fault.
-/

namespace Xsmp

/-- Bytes as they stand in a file or arrive on a connection. -/
abbrev Bytes := List UInt8

namespace Utf8

def encode (cs : List Char) : Bytes := cs.flatMap String.utf8EncodeChar

/-- What the decoder remembers between bytes: nothing, or that `left` more bytes
complete the character whose leading bits are `code`, the next of them between
`low` and `high`. -/
inductive State where
  | ready
  | inside (left code : Nat) (low high : UInt8)

/-- Begin a character at `b`. The narrowed ranges after E0, ED, F0 and F4 keep out
overlong forms, surrogates and numbers beyond the last character. -/
def start (b : UInt8) : Option Char × State :=
  if b < 0x80 then (some (Char.ofNat b.toNat), .ready)
  else if b < 0xc2 then (none, .ready)
  else if b < 0xe0 then (none, .inside 1 (b.toNat - 0xc0) 0x80 0xbf)
  else if b = 0xe0 then (none, .inside 2 0 0xa0 0xbf)
  else if b = 0xed then (none, .inside 2 13 0x80 0x9f)
  else if b < 0xf0 then (none, .inside 2 (b.toNat - 0xe0) 0x80 0xbf)
  else if b = 0xf0 then (none, .inside 3 0 0x90 0xbf)
  else if b < 0xf4 then (none, .inside 3 (b.toNat - 0xf0) 0x80 0xbf)
  else if b = 0xf4 then (none, .inside 3 4 0x80 0x8f)
  else (none, .ready)

/-- What one byte yields: characters, with `none` for each fault, newest first,
and the next state. -/
def step (state : State) (b : UInt8) : List (Option Char) × State :=
  let begin (before : List (Option Char)) : List (Option Char) × State :=
    match start b with
    | (some c, next) => (some c :: before, next)
    | (none, .ready) => (none :: before, .ready)
    | (none, next) => (before, next)
  match state with
  | .ready => begin []
  | .inside left code low high =>
    if low ≤ b && b ≤ high then
      let code := code * 64 + (b.toNat - 0x80)
      if left ≤ 1 then ([some (Char.ofNat code)], .ready)
      else ([], .inside (left - 1) code 0x80 0xbf)
    else begin [none]

/-- The characters of a byte string, with `none` for each fault. -/
def scan (bytes : Bytes) : List (Option Char) :=
  let (read, state) := bytes.foldl
    (fun (read, state) b => let (new, next) := step state b; (new ++ read, next)) ([], State.ready)
  match state with
  | .ready => read.reverse
  | .inside .. => (none :: read).reverse

def decode? (bytes : Bytes) : Option String :=
  let read := scan bytes
  if read.all Option.isSome then some (String.ofList (read.filterMap id)) else none

/-- The text of a byte string, each fault read as the replacement character. -/
def decodeLossy (bytes : Bytes) : String :=
  String.ofList ((scan bytes).map (·.getD '\ufffd'))

/-- Where the first fault of a byte string is. -/
structure Fault where
  /-- The number of bytes before it. -/
  index : Nat
  /-- The number of bytes that are no character, or none if the string ends inside a
  character. -/
  length : Option Nat
  deriving DecidableEq

/-- Look for the first fault from a state on. The character at hand began at `begun`, and
the next byte is at `index`. -/
def faultFrom? (state : State) (begun index : Nat) : Bytes → Option Fault
  | [] =>
    match state with
    | .ready => none
    | .inside .. => some ⟨begun, none⟩
  | b :: rest =>
    match state with
    | .ready =>
      match start b with
      | (none, .ready) => some ⟨index, some 1⟩
      | (_, next) => faultFrom? next index (index + 1) rest
    | .inside left code low high =>
      if low ≤ b && b ≤ high then
        faultFrom? (if left ≤ 1 then .ready else .inside (left - 1) code 0x80 0xbf) begun
          (index + 1) rest
      else some ⟨begun, some (index - begun)⟩

def fault? (bytes : Bytes) : Option Fault := faultFrom? .ready 0 0 bytes

end Utf8

def utf8 (s : String) : Bytes := Utf8.encode s.toList

end Xsmp
