import Xsmp.Json.Value
import Xsmp.Settings.Basic
import Xsmp.Text.Numeral

/-!
# The command line

A command line is a command, options that every command knows, and options of
the command. Common options may stand before or after the command, and those
after it count. Each argument is looked at once, from left to right; the value
of an option is checked when the next option is met or the level of the command
ends. Nothing that looks like an option is taken for a value.
-/

namespace Xsmp

/-- What is wrong with a command line, or what it asks for instead of a command. -/
inductive UsageError where
  | unknownArgument
  | unknownCommand
  /-- An option has no value, or an empty one where it names a file. -/
  | missingValue
  | invalidNumber
  | unexpectedValue
  | repeatedOption
  | missingCommand
  | nothingGiven
  | help
  | version
  deriving DecidableEq

/-- What the program is asked to do. -/
inductive Action where
  | run
  | status
  | logout
  | cancelLogout
  | checkpoint
  deriving DecidableEq

namespace Action

def ofName? : String → Option Action
  | "run" => some .run
  | "status" => some .status
  | "logout" => some .logout
  | "cancel-logout" => some .cancelLogout
  | "checkpoint" => some .checkpoint
  | _ => none

end Action

inductive OptionName where
  | verbose
  | help
  | version
  | runtimeDirectory
  | config
  | name
  | autostartDirectory
  | phaseTimeout
  | handshakeTimeout
  deriving DecidableEq

namespace OptionName

/-- Whether an option is known before the command (`none`) or to a command. -/
def knownTo (level : Option Action) : OptionName → Bool
  | .verbose | .help | .runtimeDirectory | .config => true
  | .version => level == none
  | .name | .autostartDirectory | .phaseTimeout | .handshakeTimeout => level == some .run

def takesValue : OptionName → Bool
  | .verbose | .help | .version => false
  | _ => true

/-- The option that a word after two dashes stands for. -/
def ofLong? (level : Option Action) (word : String) : Option OptionName :=
  (match word with
  | "verbose" => some verbose
  | "help" => some help
  | "version" => some version
  | "runtime-dir" => some runtimeDirectory
  | "config" => some config
  | "name" => some name
  | "autostart-dir" => some autostartDirectory
  | "phase-timeout" => some phaseTimeout
  | "handshake-timeout" => some handshakeTimeout
  | _ => none).filter (knownTo level)

/-- The option that a letter after a dash stands for. -/
def ofShort? (level : Option Action) (letter : Char) : Option OptionName :=
  (match letter with
  | 'v' => some verbose
  | 'h' => some help
  | 'V' => some version
  | _ => none).filter (knownTo level)

end OptionName

/-- The options that were given at one level. -/
structure GivenOptions where
  /-- How often more messages were asked for. -/
  verbose : Option Nat := none
  config : Option Path := none
  overrides : Overrides := {}

namespace GivenOptions

variable (given : GivenOptions)

/-- One more `verbose`. There is no counting beyond 255. -/
def addVerbose : GivenOptions :=
  { given with verbose := some (min 255 (given.verbose.getD 0 + 1)) }

def isEmpty : Bool :=
  given.verbose.isNone && given.config.isNone && given.overrides == {}

/-- Take a value that may be given once. -/
def once {α : Type} (before : Option α) (value : Except UsageError α) :
    Except UsageError (Option α) :=
  if before.isSome then throw .repeatedOption else value.map some

def path (text : String) : Except UsageError Path :=
  if text.isEmpty then throw .missingValue else pure ⟨text⟩

def number (text : String) : Except UsageError Nat :=
  match Text.unsigned? Json.maxUnsigned text.toList with
  | some n => pure n
  | none => throw .invalidNumber

def take (option : OptionName) (value : String) : Except UsageError GivenOptions := do
  let overrides := given.overrides
  match option with
  | .runtimeDirectory =>
    return { given with overrides := { overrides with
      runtimeDirectory := ← once overrides.runtimeDirectory (path value) } }
  | .config => return { given with config := ← once given.config (path value) }
  | .name =>
    return { given with overrides := { overrides with name := ← once overrides.name (pure value) } }
  | .autostartDirectory =>
    return { given with overrides := { overrides with
      autostartDirectories := overrides.autostartDirectories ++ [← path value] } }
  | .phaseTimeout =>
    return { given with overrides := { overrides with
      phaseTimeout := ← once overrides.phaseTimeout (number value) } }
  | .handshakeTimeout =>
    return { given with overrides := { overrides with
      handshakeTimeout := ← once overrides.handshakeTimeout (number value) } }
  | .verbose | .help | .version => return given

end GivenOptions

namespace CommandLine

/-- How far one level of a command line has been read. -/
structure Reading where
  given : GivenOptions := {}
  /-- The last option and its value, which is still to be checked. Without a value, it is
  the next argument. -/
  pending : Option (OptionName × Option String) := none
  /-- Whether two dashes ended the options. -/
  ended : Bool := false

namespace Reading

variable (reading : Reading)

/-- Whether the next argument is the value of an option. -/
def awaitsValue : Bool :=
  match reading.pending with
  | some (_, none) => true
  | _ => false

/-- Check the value of the last option. -/
def settle : Except UsageError Reading :=
  match reading.pending with
  | none => pure reading
  | some (_, none) => throw .missingValue
  | some (option, some value) => do
    return { reading with given := ← reading.given.take option value, pending := none }

/-- An option without a value. -/
def flag (option : OptionName) : Except UsageError Reading := do
  let reading ← reading.settle
  match option with
  | .help => throw .help
  | .version => throw .version
  | _ => return { reading with given := reading.given.addVerbose }

/-- An option by its word, with the value after its equals sign. -/
def long (level : Option Action) (word : String) (value : Option String) :
    Except UsageError Reading :=
  match OptionName.ofLong? level word with
  | none => throw .unknownArgument
  | some option =>
    if option.takesValue then do
      let reading ← reading.settle
      match value with
      | some value => Reading.settle { reading with pending := some (option, some value) }
      | none => return { reading with pending := some (option, none) }
    else if value.isSome then throw .unexpectedValue
    else reading.flag option

/-- Options by their letters. -/
def short (level : Option Action) : Reading → List Char → Except UsageError Reading
  | reading, [] => pure reading
  | reading, letter :: rest =>
    match OptionName.ofShort? level letter with
    | none => throw .unknownArgument
    | some option => do short level (← reading.flag option) rest

end Reading

/-- What an argument looks like. -/
inductive Shape where
  | separator
  | long (word : String) (value : Option String)
  | short (letters : List Char)
  | plain

def Shape.ofArgument (argument : String) : Shape :=
  match argument.toList with
  | ['-', '-'] => .separator
  | '-' :: '-' :: rest =>
    let word := String.ofList (rest.takeWhile (· != '='))
    match rest.dropWhile (· != '=') with
    | _ :: value => .long word (some (String.ofList value))
    | [] => .long word none
  | '-' :: letter :: rest => .short (letter :: rest)
  | _ => .plain

/-- What an argument that is neither option nor value is taken for. Before the command,
it is one that does not exist. -/
def stray (level : Option Action) (reading : Reading) (argument : String) : UsageError :=
  match level with
  | some _ => .unknownArgument
  | none =>
    if reading.ended && ((Action.ofName? argument).isSome || argument == "help") then
      .unknownArgument
    else .unknownCommand

/-- Read one level up to a command or to the end. A command comes with the arguments after
it. -/
def readLevel (level : Option Action) (reading : Reading) :
    List String → Except UsageError (Reading × Option (String × List String))
  | [] => .ok (reading, none)
  | argument :: rest => do
    if reading.ended then throw (stray level reading argument)
    else if level.isNone && !reading.awaitsValue
        && ((Action.ofName? argument).isSome || argument == "help") then
      return (reading, some (argument, rest))
    else match Shape.ofArgument argument with
      | .separator => readLevel level { reading with ended := true } rest
      | .long word value => readLevel level (← reading.long level word value) rest
      | .short letters => readLevel level (← reading.short level letters) rest
      | .plain =>
        match reading.pending with
        | some (option, none) =>
          readLevel level { reading with pending := some (option, some argument) } rest
        | _ => throw (stray level reading argument)

/-- What help is asked for: nothing, or one command. -/
def helpFor : List String → UsageError
  | [] => .help
  | [name] => if (Action.ofName? name).isSome || name == "help" then .help else .unknownCommand
  | _ => .unknownCommand

end CommandLine

/-- A command line that was understood. -/
structure Invocation where
  /-- How many more messages are asked for. -/
  verbose : Nat
  config : Option Path
  overrides : Overrides
  action : Action

namespace Invocation

open CommandLine

/-- Put the options before and after the command together. -/
def combine (outer inner : GivenOptions) (action : Action) : Invocation where
  verbose := (inner.verbose.or outer.verbose).getD 0
  config := inner.config.or outer.config
  overrides := { inner.overrides with
    runtimeDirectory := inner.overrides.runtimeDirectory.or outer.overrides.runtimeDirectory }
  action

/-- Read a command line, without the name of the program. -/
def parse (arguments : List String) : Except UsageError Invocation := do
  match ← readLevel none {} arguments with
  | (outer, none) =>
    let outer ← outer.settle
    throw (if outer.given.isEmpty then .nothingGiven else .missingCommand)
  | (outer, some (name, rest)) =>
    match Action.ofName? name with
    | none => throw (helpFor rest)
    | some action =>
      let (inner, _) ← readLevel (some action) {} rest
      let inner ← inner.settle
      let outer ← outer.settle
      return combine outer.given inner.given action

/-- The directory of the sockets that an invocation is about. -/
def sockets (invocation : Invocation) (settings : Settings) (env : Environment) : Path :=
  invocation.overrides.runtimeDirectory.getD (settings.sockets env)

end Invocation

end Xsmp
