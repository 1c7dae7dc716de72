import Xsmp.Host.FileTree
import Xsmp.Session.Phase
import Xsmp.Text.Blank
import Xsmp.Text.Escape

/-!
# Manifests

A manifest describes a program that a session starts. Of its file only the
groups headed `[Desktop Entry]` count. They hold one key and its value per line;
the first value of a key is the one that counts, and keys with a language in
brackets are left out. A line of the group without a key, or a header without
its closing bracket anywhere, spoils the file.
-/

namespace Xsmp

/-- What a line of a manifest is, blanks at its ends aside. -/
inductive ManifestLine where
  /-- Nothing, or a comment. -/
  | blank
  | header (group : List Char)
  /-- A header without its closing bracket. -/
  | brokenHeader
  | pair (key value : List Char)
  | other
  deriving DecidableEq

namespace ManifestLine

def ofTrimmed : List Char → ManifestLine
  | [] => .blank
  | '#' :: _ => .blank
  | '[' :: rest => if rest.getLast? = some ']' then .header rest.dropLast else .brokenHeader
  | line =>
    match line.dropWhile (· != '=') with
    | '=' :: value =>
      .pair (Text.trimEnd (line.takeWhile (· != '='))) (Text.unescape (Text.trimStart value))
    | _ => .other

def ofText (line : List Char) : ManifestLine := ofTrimmed (Text.trim line)

end ManifestLine

/-- The keys and values of a manifest and the path it came from. -/
structure Manifest where
  source : Path
  /-- Keys in the order of the file. A key may occur again, but the first one counts. -/
  values : List (String × String)

/-- Why there is no manifest. -/
inductive ManifestError where
  | unreadable (path : Path) (cause : HostError)
  | missingGroup (path : Path)
  | malformed (path : Path) (line : Nat)
  deriving DecidableEq

namespace ManifestError

def message : ManifestError → String
  | .unreadable path cause => "could not read " ++ path.text ++ ": " ++ cause.message
  | .missingGroup path => path.text ++ ": missing [Desktop Entry] group"
  | .malformed path line => path.text ++ ":" ++ toString line ++ ": malformed line"

end ManifestError

namespace Manifest

def groupName : List Char := "Desktop Entry".toList

/-- How far a manifest has been read. -/
structure Scan where
  /-- Whether the last header was that of the group. -/
  inGroup : Bool := false
  /-- Whether there was such a header. -/
  found : Bool := false
  /-- Keys and values, the last one first. -/
  values : List (String × String) := []

/-- Read one more line, or find it malformed. -/
def Scan.line? (scan : Scan) : ManifestLine → Option Scan
  | .blank => some scan
  | .header group =>
    let inGroup := group == groupName
    some { scan with inGroup, found := scan.found || inGroup }
  | .brokenHeader => none
  | .pair key value =>
    if scan.inGroup && !key.contains '[' then
      some { scan with values := (String.ofList key, String.ofList value) :: scan.values }
    else some scan
  | .other => if scan.inGroup then none else some scan

/-- Read lines numbered from `number`. The error is the number of the first malformed
line. -/
def scanLines (scan : Scan) (number : Nat) : List (List Char) → Except Nat Scan
  | [] => .ok scan
  | line :: rest =>
    match scan.line? (.ofText line) with
    | some scan => scanLines scan (number + 1) rest
    | none => .error number

def parse (source : Path) (contents : String) : Except ManifestError Manifest :=
  match scanLines {} 1 (Text.pieces '\n' contents.toList) with
  | .error line => .error (.malformed source line)
  | .ok scan =>
    if scan.found then .ok { source, values := scan.values.reverse }
    else .error (.missingGroup source)

def load (tree : FileTree) (path : Path) : Except ManifestError Manifest :=
  match tree.readText path with
  | .ok contents => parse path contents
  | .error cause => .error (.unreadable path cause)

variable (manifest : Manifest)

/-! What a manifest says. -/

def text? (key : String) : Option String := manifest.values.lookup key

/-- The value of a key that is `true` or `false`. Anything else counts as absent. -/
def flag? (key : String) : Option Bool :=
  match manifest.text? key with
  | some "true" => some true
  | some "false" => some false
  | _ => none

/-- The non-empty items of a value with semicolons between them. -/
def items (key : String) : List String :=
  match manifest.text? key with
  | some value =>
    ((Text.pieces ';' value.toList).filter (!·.isEmpty)).map String.ofList
  | none => []

/-- The file name of the manifest, by which one manifest stands for another. -/
def baseName : String := manifest.source.fileName?.getD ""

def phase : Phase := ((manifest.text? "X-GNOME-Autostart-Phase").map Phase.ofTag).getD .application

def exec? : Option String := manifest.text? "Exec"

/-- The services that the program stands for. -/
def services : List String := manifest.items "X-GNOME-Provides"

def provides (service : String) : Bool := manifest.services.contains service

/-- Whether the program wants to be told its client identifier. -/
def notifies : Bool :=
  ((manifest.flag? "X-GNOME-Autostart-Notify").or (manifest.flag? "AutostartNotify")).getD false

def restarts : Bool := (manifest.flag? "X-GNOME-AutoRestart").getD false

/-- The first word of a condition, in lower case, and the rest without blanks around it. -/
def condition (text : String) : String × String :=
  let cs := Text.trim text.toList
  (String.ofList ((cs.takeWhile (!Text.isBlank ·)).map Char.toLower),
    String.ofList (Text.trim (cs.dropWhile (!Text.isBlank ·))))

/-- Whether a condition holds. It asks whether a file exists, and a relative path is
looked for in the directory of the user's configuration, if there is one. Any other
condition holds. -/
def holds (tree : FileTree) (configDirectory : Option Path) (text : String) : Bool :=
  let (kind, argument) := condition text
  let path := match configDirectory with
    | some base => base.join ⟨argument⟩
    | none => ⟨argument⟩
  match kind with
  | "if-exists" => tree.holds path
  | "unless-exists" => !tree.holds path
  | _ => true

/-- Whether the program is not to be started: it is hidden, it is switched off, or its
condition does not hold. -/
def disabled (tree : FileTree) (configDirectory : Option Path) : Bool :=
  manifest.flag? "Hidden" == some true
    || manifest.flag? "X-GNOME-Autostart-enabled" == some false
    || match manifest.text? "X-GNOME-Autostart-Condition" with
      | some condition => !holds tree configDirectory condition
      | none => false

end Manifest

end Xsmp
