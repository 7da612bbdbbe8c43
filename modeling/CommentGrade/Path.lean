import CommentGrade.Text.Case

/-!
# Paths

A path is a root and a list of components. Empty components and single dots are dropped when a path is read;
two dots are kept, since where they lead depends on the tree.
-/
namespace CommentGrade

/-- A path, relative if its root is empty. -/
structure Path where
  root : String
  parts : List String
  deriving DecidableEq, Repr

namespace Path

/-- The components of a path text that say something. -/
def components (s : String) : List String :=
  ((s.toList.splitOnP (· == '/')).map String.ofList).filter fun p => p != "" && p != "."

/-- The slashes that a path text starts with, as a root: two are a root of their own, more are one. -/
def rootOf (s : String) : String :=
  match (s.toList.takeWhile (· == '/')).length with
  | 0 => ""
  | 2 => "//"
  | _ => "/"

def ofString (s : String) : Path := ⟨rootOf s, components s⟩

/-- The text of a path; the path without components is the dot. -/
def text (p : Path) : String :=
  if p.root = "" ∧ p.parts = [] then "." else p.root ++ "/".intercalate p.parts

/-- The components of a path from the top of a tree on, if relative paths start at a place. -/
def absolute (place : List String) (p : Path) : List String := if p.root = "" then place ++ p.parts else p.parts

/-- Components without two dots: each pair cancels the component before it, if there is one. -/
def normal (parts : List String) : List String :=
  parts.foldl (fun above q => if q = ".." then above.dropLast else above ++ [q]) []

def child (p : Path) (name : String) : Path := { p with parts := p.parts ++ [name] }

/-- The last component, or nothing if there is none. -/
def name (p : Path) : String := p.parts.getLast?.getD ""

end Path

/-- The ending of a file name: from its last dot on, unless that dot is the first or the last character. -/
def nameSuffix (name : List Char) : List Char :=
  let ending := (name.reverse.takeWhile (· != '.')).reverse
  let stem := name.length - ending.length
  if stem < 2 ∨ ending = [] then [] else '.' :: ending

namespace Path

def suffix (p : Path) : String := String.ofList (nameSuffix p.name.toList)

end Path

end CommentGrade
