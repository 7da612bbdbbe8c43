import CommentGrade.Files.Tree
import CommentGrade.Language.Detection

/-!
# Walking a tree

The files that paths stand for: a file stands for itself, a directory for the files below it. The files of a
directory come before those of its subdirectories, both in alphabetical order. Some directories are not entered.
-/
namespace CommentGrade

namespace FileTree

/-- The directories that are not entered: version control, environments, caches, build results. -/
def skippedNames : List String :=
  [".git", ".hg", ".svn", ".venv", "venv", "__pycache__", "node_modules", ".mypy_cache", ".pytest_cache",
    ".tox", "dist", "build"]

/-- The names of the files among the entries of a directory. -/
def fileNames : List (String × FileTree) → List String
  | [] => []
  | (name, .file _) :: es => name :: fileNames es
  | (_, .directory _) :: es => fileNames es

/-- Pairs in alphabetical order of their names. -/
def byName {α : Type} (es : List (String × α)) : List (String × α) := es.mergeSort fun a b => decide (a.1 ≤ b.1)

mutual

/-- The paths of the files of a tree that is at a path. -/
def filesBelow (place : Path) : FileTree → List Path
  | .file _ => []
  | .directory es =>
    ((fileNames es).mergeSort fun a b => decide (a ≤ b)).map place.child ++
      (byName (subdirectories place es)).flatMap (·.2)

/-- The subdirectories that are entered, by name, with the files below them. -/
def subdirectories (place : Path) : List (String × FileTree) → List (String × List Path)
  | [] => []
  | (name, t) :: es =>
    match t with
    | .file _ => subdirectories place es
    | .directory _ =>
      if skippedNames.contains name then subdirectories place es
      else (name, filesBelow (place.child name) t) :: subdirectories place es

end

/-- Whether the language of a file follows from its path. -/
def isDetectable (p : Path) : Bool := (Language.ofFileName? p.name).isSome

end FileTree

namespace Disk

/-- The files that a path stands for. Below a directory, files of no known language may be left out. -/
def filesAt (d : Disk) (detect : Bool) (path : String) : List Path :=
  let p := Path.ofString path
  match d.find? p with
  | none => []
  | some (.file _) => [p]
  | some (.directory es) => (FileTree.filesBelow p (.directory es)).filter fun f => !detect || FileTree.isDetectable f

/-- The files that paths stand for, in the order of the paths. -/
def filesOf (d : Disk) (detect : Bool) (paths : List String) : List Path := paths.flatMap (d.filesAt detect)

end Disk

end CommentGrade
