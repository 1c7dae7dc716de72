import Xsmp.Host.FileTree
import Xsmp.Manifest.Basic
import Xsmp.Manifest.Exec

/-!
# Starting programs

A program is started with its arguments and two variables of its environment:
the network id under which it finds the session, and the client identifier that
was made for it. Of the two, one that is not set is the manager's own for the
network id, and is removed for the client identifier.
-/

namespace Xsmp

/-- A program as it is to be started. -/
structure Command where
  /-- The program and its arguments. -/
  arguments : List String
  networkId : Option String
  /-- The client identifier for a program that asks for it. -/
  autostartId : Option String := none
  deriving DecidableEq

/-- Why a program of the session was not started. -/
inductive LaunchError where
  | missingExec (program : String)
  | invalidExec (program exec : String)
  | refused (program : String) (cause : HostError)
  deriving DecidableEq

namespace LaunchError

def message : LaunchError → String
  | .missingExec program => program ++ " has no Exec line"
  | .invalidExec program exec => program ++ ": Exec line `" ++ exec ++ "` is empty or unbalanced"
  | .refused program cause => "failed to launch " ++ program ++ ": " ++ cause.message

end LaunchError

/-- What the host can start: the programs that are found by their name alone. No file
of the tree is a program. -/
structure ProgramFinder where
  programs : List String
  tree : FileTree

namespace ProgramFinder

/-- Look for a program. A path is followed; a name is looked up. -/
def find (finder : ProgramFinder) (program : String) : Except HostError Unit :=
  if program.toList.contains '/' then
    match finder.tree.find ⟨program⟩ with
    | .ok _ => throw .permissionDenied
    | .error cause => throw cause
  else if program == "." || program == ".." then throw .permissionDenied
  else if FileTree.maxName < program.utf8ByteSize then throw .nameTooLong
  else if finder.programs.contains program then pure ()
  else throw .notFound

end ProgramFinder

namespace Command

/-- The texts that are handed to the host: the arguments, and the variables as they stand
in the environment. -/
def texts (command : Command) : List String :=
  command.arguments
    ++ (command.networkId.map fun id => "SESSION_MANAGER=" ++ id).toList
    ++ (command.autostartId.map fun id => "DESKTOP_AUTOSTART_ID=" ++ id).toList

/-- The longest text that the host hands over, in bytes. -/
def maxText : Nat := 131071

/-- The most room that all texts may take, in bytes. -/
def maxRoom : Nat := 2097152

/-- The room that a text takes: its bytes, one that ends it, and where it is found. -/
def room (text : String) : Nat := text.utf8ByteSize + 1 + 8

/-- Whether the host can hand over the texts of a command. -/
def fits (command : Command) : Bool :=
  command.texts.all (fun text => text.utf8ByteSize ≤ maxText)
    && command.texts.foldl (fun total text => total + room text) 0 ≤ maxRoom

/-- Whether the host starts a command, and why not. The program is looked for before the
length of the texts counts. -/
def start (command : Command) (finder : ProgramFinder) : Except HostError Unit := do
  if command.texts.any (·.toList.contains '\x00') then throw .nulInArgument
  match command.arguments with
  | [] => throw .notFound
  | program :: _ => finder.find program
  if command.fits then pure () else throw .argumentsTooLong

end Command

namespace Manifest

/-- The command that starts the program of a manifest, given the network id and the
client identifier made for it. -/
def command (manifest : Manifest) (networkId clientId : Option String) :
    Except LaunchError Command :=
  match manifest.exec? with
  | none => .error (.missingExec manifest.baseName)
  | some exec =>
    match Exec.command? exec with
    | none => .error (.invalidExec manifest.baseName exec)
    | some arguments =>
      .ok { arguments, networkId, autostartId := if manifest.notifies then clientId else none }

def launch (manifest : Manifest) (finder : ProgramFinder) (networkId clientId : Option String) :
    Except LaunchError Command := do
  let command ← manifest.command networkId clientId
  match command.start finder with
  | .ok () => pure command
  | .error cause => .error (.refused manifest.baseName cause)

/-- Whether the session waits for the program to exit. -/
def watched (manifest : Manifest) : Bool := manifest.phase == .initialization

end Manifest

end Xsmp
