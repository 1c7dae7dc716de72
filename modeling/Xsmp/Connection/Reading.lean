import Xsmp.Connection.Line
import Xsmp.Control.Message
import Xsmp.Message.FromClient

/-!
# Reading a connection

What the bytes on a connection come to. On a client's connection every line is a
message, and the first one that is not ends the reading. On a control
connection every line is a request; one that cannot be understood is answered
all the same, but one that is no text ends the connection.
-/

namespace Xsmp

/-- What happens on a client's connection. -/
inductive ConnectionEvent where
  | message (message : ClientMessage)
  /-- Nothing more is read. -/
  | closed
  deriving DecidableEq

namespace ConnectionEvent

/-- What a line of a client comes to; a blank line comes to nothing. -/
def ofLine (line : Bytes) : List ConnectionEvent :=
  match Utf8.decode? line with
  | none => [.closed]
  | some text =>
    if isBlankLine text then []
    else match (Wire.decode? text : Option ClientMessage) with
      | some m => [.message m]
      | none => [.closed]

/-- What lines come to. Nothing is read after the first bad one. -/
def ofLines : List Bytes → List ConnectionEvent
  | [] => []
  | line :: rest =>
    let events := ofLine line
    if events.contains .closed then events else events ++ ofLines rest

end ConnectionEvent

/-- Read bytes of a client. The reader for what follows is missing once the reading has
ended. -/
def LineReader.feedClient (reader : LineReader) (bytes : Bytes) :
    List ConnectionEvent × Option LineReader :=
  let (lines, next) := reader.feed bytes
  let events := ConnectionEvent.ofLines lines
  if events.contains .closed then (events, none)
  else match next with
    | some next => (events, some next)
    | none => (events ++ [.closed], none)

def LineReader.endClient (reader : LineReader) : List ConnectionEvent :=
  let events := ConnectionEvent.ofLines reader.last?.toList
  if events.contains .closed then events else events ++ [.closed]

/-- What happens on a control connection. -/
inductive ControlEvent where
  | request (request : ControlRequest)
  /-- A line that is no request. -/
  | misunderstood
  /-- Nothing more is read. -/
  | closed
  deriving DecidableEq

namespace ControlEvent

/-- What a line of a control connection comes to; a blank line comes to nothing. -/
def ofLine (line : Bytes) : List ControlEvent :=
  match Utf8.decode? line with
  | none => [.closed]
  | some text =>
    if isBlankLine text then []
    else match (Wire.decode? text : Option ControlRequest) with
      | some r => [.request r]
      | none => [.misunderstood]

/-- What lines come to. Nothing is read after the first one that is no text. -/
def ofLines : List Bytes → List ControlEvent
  | [] => []
  | line :: rest =>
    let events := ofLine line
    if events.contains .closed then events else events ++ ofLines rest

end ControlEvent

/-- Read bytes of a control connection. The reader for what follows is missing once the
reading has ended. -/
def LineReader.feedControl (reader : LineReader) (bytes : Bytes) :
    List ControlEvent × Option LineReader :=
  let (lines, next) := reader.feed bytes
  let events := ControlEvent.ofLines lines
  if events.contains .closed then (events, none)
  else match next with
    | some next => (events, some next)
    | none => (events ++ [.closed], none)

def LineReader.endControl (reader : LineReader) : List ControlEvent :=
  let events := ControlEvent.ofLines reader.last?.toList
  if events.contains .closed then events else events ++ [.closed]

end Xsmp
