import Xsmp.Manifest.Basic

/-!
# Autostart directories

The programs of a session are the manifests in a list of directories, the most
important one first. A manifest stands for all later ones of the same file name;
one that cannot be read stands for nothing.
-/

namespace Xsmp.Autostart

/-- The ending of the file name of a manifest. -/
def ending : String := ".desktop"

/-- Whether a file name is that of a manifest. There has to be something before the ending. -/
def isManifestName (name : String) : Bool :=
  name.endsWith ending && name != ending

/-- The manifests of one directory in the order of their names. -/
def inDirectory (tree : FileTree) (directory : Path) : List Manifest :=
  match tree.list directory with
  | .error _ => []
  | .ok names =>
    ((names.filter isManifestName).mergeSort fun a b => decide (a ≤ b)).filterMap fun name =>
      (Manifest.load tree (directory.entry name)).toOption

/-- Keep the first manifest of each file name. -/
def firstOfEach (manifests : List Manifest) : List Manifest :=
  (manifests.foldl (fun kept manifest =>
    if kept.any (·.baseName == manifest.baseName) then kept else manifest :: kept) []).reverse

def load (tree : FileTree) (directories : List Path) : List Manifest :=
  firstOfEach (directories.flatMap (inDirectory tree))

end Xsmp.Autostart
