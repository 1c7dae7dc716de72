import Xsmp.Host.Error
import Xsmp.Host.Path
import Xsmp.Text.Utf8

/-!
# File trees

The part of the host's file system that matters here: directories, plain files
and sockets by their place. Each operation checks what the host checks, in the
same order, and either changes the tree or says why not. An operation of several
steps may fail after the first ones; what these have changed stays. A path is
followed part by part; every part is looked up in what has to be a directory.
-/

namespace Xsmp

/-- Where something stands in a tree: the names from the innermost to the outermost. -/
abbrev Place := List String

/-- What stands at a place. -/
inductive Node where
  | directory (mode : Nat)
  /-- A plain file with its contents and the time it was last written, in nanoseconds
  since the epoch. Places with the same `identity` hold the same file. -/
  | file (identity : Nat) (contents : Bytes) (modified : Int)
  | socket

namespace Node

def isDirectory : Node → Bool
  | .directory _ => true
  | _ => false

/-- Who may do what, as three octal digits. Only that of a directory is ever changed. -/
def mode : Node → Nat
  | .directory mode => mode
  | .file .. => 0o644
  | .socket => 0o755

end Node

/-- A file system. The root always is a directory. -/
structure FileTree where
  nodes : List (Place × Node) := []
  /-- Where relative paths start. -/
  workingDirectory : Place := []
  /-- The identity of the next new file. -/
  nextIdentity : Nat := 0

namespace FileTree

/-- The mode of a new directory. -/
def defaultMode : Nat := 0o755

/-- The mode of a directory that only its owner may enter. -/
def privateMode : Nat := 0o700

variable (tree : FileTree)

def node? (place : Place) : Option Node :=
  match tree.nodes.lookup place with
  | some node => some node
  | none => if place.isEmpty then some (.directory defaultMode) else none

def put (place : Place) (node : Node) : FileTree :=
  { tree with nodes := (place, node) :: tree.nodes.filter (·.1 != place) }

def erase (place : Place) : FileTree :=
  { tree with nodes := tree.nodes.filter (·.1 != place) }

def putFile (place : Place) (contents : Bytes) (now : Int) : FileTree :=
  { tree.put place (.file tree.nextIdentity contents now) with
    nextIdentity := tree.nextIdentity + 1 }

/-- The tree with new contents for a file, at all its places. -/
def overwrite (identity : Nat) (contents : Bytes) (now : Int) : FileTree :=
  { tree with
    nodes := tree.nodes.map fun (place, node) => match node with
      | .file other _ _ =>
        if other = identity then (place, .file identity contents now) else (place, node)
      | _ => (place, node) }

/-! Following a path. -/

def maxName : Nat := 255

def maxPath : Nat := 4095

/-- Follow one part of a path. Only a directory has anything below it. -/
def enter (place : Place) (part : String) : Except HostError Place :=
  match tree.node? place with
  | none => throw .notFound
  | some (.directory _) =>
    if part.isEmpty || part == "." then pure place
    else if part == ".." then pure place.tail
    else if maxName < part.utf8ByteSize then throw .nameTooLong
    else pure (part :: place)
  | some _ => throw .notADirectory

/-- Check that the host takes a path. -/
def checkPath (path : Path) : Except HostError Unit :=
  if path.text.toList.contains '\x00' then throw .nulInPath
  else if maxPath < path.text.utf8ByteSize then throw .nameTooLong
  else pure ()

/-- Where the following of a path starts. -/
def start (path : Path) : Place := if path.isAbsolute then [] else tree.workingDirectory

/-- The place that a path leads to. What stands there may be missing, but all that
leads to it is there. -/
def locate (path : Path) : Except HostError Place := do
  checkPath path
  if path.text.isEmpty then throw .notFound
  else path.parts.foldlM tree.enter (tree.start path)

/-- The place of a file that may have to be made. A slash at the end asks for a directory,
which is not made that way. -/
def locateNew (path : Path) : Except HostError Place := do
  checkPath path
  if path.endsWithSlash then
    let _ ← (path.names.dropLast ++ ["."]).foldlM tree.enter (tree.start path)
    throw .isADirectory
  else tree.locate path

def find (path : Path) : Except HostError (Place × Node) := do
  let place ← tree.locate path
  match tree.node? place with
  | some node => pure (place, node)
  | none => throw .notFound

def holds (path : Path) : Bool := (tree.find path).toBool

/-! Reading. -/

def read (path : Path) : Except HostError Bytes := do
  match (← tree.find path).2 with
  | .file _ contents _ => pure contents
  | .directory _ => throw .isADirectory
  | .socket => throw .noSuchDevice

def readText (path : Path) : Except HostError String := do
  match Utf8.decode? (← tree.read path) with
  | some contents => pure contents
  | none => throw .invalidUtf8

/-- The time a file was last written, if the path leads to a file. -/
def modified? (path : Path) : Option Int :=
  match tree.find path with
  | .ok (_, .file _ _ modified) => some modified
  | _ => none

/-- The names in a directory, in no particular order. -/
def list (path : Path) : Except HostError (List String) := do
  match ← tree.find path with
  | (place, .directory _) =>
    pure (tree.nodes.filterMap fun
      | (name :: directory, _) => if directory == place then some name else none
      | _ => none)
  | _ => throw .notADirectory

/-! Changing. -/

/-- Make an empty file where nothing stands yet. -/
def create (path : Path) (now : Int) : Except HostError FileTree := do
  let place ← tree.locateNew path
  match tree.node? place with
  | none => pure (tree.putFile place [] now)
  | some _ => throw .alreadyExists

/-- Give the file at `path` a second place. -/
def link (path other : Path) : Except HostError FileTree := do
  let (_, node) ← tree.find path
  let place ← tree.locate other
  match tree.node? place with
  | none => pure (tree.put place node)
  | some _ => throw .alreadyExists

/-- Remove a file or a socket. A file that has another place stays there. -/
def remove (path : Path) : Except HostError FileTree := do
  match ← tree.find path with
  | (_, .directory _) => throw .isADirectory
  | (place, _) => pure (tree.erase place)

/-- Write a file anew, or replace its contents. -/
def write (path : Path) (contents : Bytes) (now : Int) : Except HostError FileTree := do
  let place ← tree.locateNew path
  match tree.node? place with
  | none => pure (tree.putFile place contents now)
  | some (.file identity _ _) => pure (tree.overwrite identity contents now)
  | some (.directory _) => throw .isADirectory
  | some .socket => throw .noSuchDevice

/-- Make one directory. All above it is there. -/
def makeDirectory (start : Place) (names : List String) : Except HostError FileTree := do
  let place ← names.foldlM tree.enter start
  match tree.node? place with
  | none => pure (tree.put place (.directory defaultMode))
  | some _ => throw .alreadyExists

/-- The outcome of making a directory, where one that is there already will do. -/
def keepDirectory (start : Place) (names : List String) :
    Except HostError FileTree → FileTree × Except HostError Unit
  | .ok grown => (grown, .ok ())
  | .error .alreadyExists =>
    match names.foldlM tree.enter start with
    | .ok place =>
      (tree, if (tree.node? place).any Node.isDirectory then .ok () else .error .alreadyExists)
    | .error _ => (tree, .error .alreadyExists)
  | .error cause => (tree, .error cause)

/-- Make a directory, the first one of those given; the others stand above it, and are made
first where they are missing. -/
def makeDirectoryBelow (start : Place) : List (List String) → FileTree →
    FileTree × Except HostError Unit
  | [], tree => (tree, .ok ())
  | names :: above, tree =>
    match tree.makeDirectory start names with
    | .error .notFound =>
      match makeDirectoryBelow start above tree with
      | (tree, .ok ()) => tree.keepDirectory start names (tree.makeDirectory start names)
      | failed => failed
    | outcome => tree.keepDirectory start names outcome

/-- Make the directories of a path. What is there already has to be a directory. -/
def makeDirectories (path : Path) : FileTree × Except HostError Unit :=
  match checkPath path with
  | .ok () => makeDirectoryBelow (tree.start path) (path.names :: path.above) tree
  | .error cause => (tree, .error cause)

/-- Put a file at a path, or a directory without contents, and make the directories above
it. What cannot be put there is left out. -/
def plant (path : Path) (contents : Option Bytes) (now : Int) : FileTree :=
  match contents with
  | none => (tree.makeDirectories path).1
  | some contents =>
    let grown := (tree.makeDirectories path.parent).1
    (grown.write path contents now).toOption.getD grown

def plantAll (files : List (Path × Option Bytes)) (now : Int) : FileTree :=
  files.foldl (fun tree (path, contents) => tree.plant path contents now) tree

def setMode (path : Path) (mode : Nat) : Except HostError FileTree := do
  match ← tree.find path with
  | (place, .directory _) => pure (tree.put place (.directory mode))
  | _ => pure tree

/-! Sockets. -/

def maxSocketPath : Nat := 107

/-- The longest name of a socket outside the file system, in bytes. -/
def maxAbstractName : Nat := 108

/-- Check that a path fits into a socket address. -/
def checkSocketPath (path : Path) : Except HostError Unit :=
  if path.text.toList.contains '\x00' then throw .nulInSocketPath
  else if maxSocketPath < path.text.utf8ByteSize then throw .socketPathTooLong
  else pure ()

/-- Put a socket where nothing stands yet. -/
def makeSocket (path : Path) : Except HostError FileTree := do
  checkSocketPath path
  let place ← tree.locate path
  match tree.node? place with
  | none => pure (tree.put place .socket)
  | some _ => throw .alreadyExists

/-- Put a socket at a path. A file or socket that is left over there is removed first, and
stays removed if no socket can be put there. -/
def bind (path : Path) : FileTree × Except HostError Unit :=
  match if tree.holds path then tree.remove path else pure tree with
  | .error cause => (tree, .error cause)
  | .ok cleared =>
    match cleared.makeSocket path with
    | .ok bound => (bound, .ok ())
    | .error cause => (cleared, .error cause)

/-- Look for the socket at a path. Nothing there, or nothing that could listen, is no
error; nothing listens outside the file system. -/
def reach (path : Path) : Except HostError (Option Place) := do
  if path.isAbstract then
    if maxAbstractName < path.text.utf8ByteSize then throw .abstractNameTooLong
    else pure none
  else
    checkSocketPath path
    match tree.find path with
    | .ok (place, .socket) => pure (some place)
    | .ok _ => pure none
    | .error .notFound => pure none
    | .error cause => throw cause

/-! What an operation does to the places of a tree. -/

theorem node?_put_self (place : Place) (node : Node) :
    (tree.put place node).node? place = some node := by
  simp [node?, put]

end FileTree

end Xsmp
