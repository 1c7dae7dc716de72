import Xsmp.Text.Blank

/-!
# Paths

A path is kept as it was written, since it is shown to the user that way. Its
parts are what stands between slashes, and its names are those that are not
empty.
-/

namespace Xsmp

/-- The path of a file, absolute or relative. -/
structure Path where
  text : String
  deriving DecidableEq

namespace Path

/-- The parts between slashes, empty ones included. -/
def parts (path : Path) : List String :=
  (Text.pieces '/' path.text.toList).map String.ofList

/-- The names from the outermost to the innermost. -/
def names (path : Path) : List String := path.parts.filter (!·.isEmpty)

def isAbsolute (path : Path) : Bool := path.text.toList.head? == some '/'

/-- Whether a path ends with a slash. Such a path leads to a directory only. -/
def endsWithSlash (path : Path) : Bool := path.text.toList.getLast? == some '/'

/-- Whether a path is the name of a socket outside the file system. -/
def isAbstract (path : Path) : Bool := path.text.toList.head? == some '\x00'

/-- The names that lead to the directories above the last name, the innermost directory
first. Single dots do not count. -/
def above (path : Path) : List (List String) :=
  let rec go : List String → List (List String)
    | _ :: name :: outer => (name :: outer).reverse :: go (name :: outer)
    | _ => []
  go (path.names.filter (· != ".")).reverse

/-- The path of `other` as seen from `base`: an absolute path stands for itself. -/
def join (base other : Path) : Path :=
  if other.isAbsolute then other
  else match base.text.toList.getLast? with
    | none => other
    | some '/' => ⟨base.text ++ other.text⟩
    | some _ => ⟨base.text ++ "/" ++ other.text⟩

/-- The path of the entry `name` of the directory `base`. -/
def entry (base : Path) (name : String) : Path := base.join ⟨name⟩

/-- The path whose last name is longer by `ending`. -/
def extend (path : Path) (ending : String) : Path := ⟨path.text ++ ending⟩

def parent (path : Path) : Path := ⟨"/".intercalate path.parts.dropLast⟩

/-- The last name in a path. Empty parts and single dots do not count, and there is
no name at the end of a path that ends with two dots. -/
def fileName? (path : Path) : Option String :=
  match (path.parts.filter fun part => !part.isEmpty && part != ".").getLast? with
  | some ".." => none
  | last => last

end Path

end Xsmp
