import CommentGrade.Path

/-!
# File trees

The files and directories below one directory, as a value. A disk is the tree of all of them with the place where a
program runs. Relative paths lead from there and the others from the top; two dots lead back to the directory above, and
from the top nowhere else.
-/
namespace CommentGrade

/-- A file with its bytes, or a directory with its entries. -/
inductive FileTree where
  | file (content : List UInt8)
  | directory (entries : List (String × FileTree))

namespace FileTree

def empty : FileTree := .directory []

/-- What a row of components leads to, starting inside nested directories, the innermost first. -/
def descend : List FileTree → FileTree → List String → Option FileTree
  | _, here, [] => some here
  | above, here, p :: ps =>
    match here with
    | .file _ => none
    | .directory entries =>
      if p = ".." then
        match above with
        | [] => descend [] here ps
        | up :: rest => descend rest up ps
      else
        match entries.lookup p with
        | some t => descend (here :: above) t ps
        | none => none

mutual

/-- A tree with something put at a place in it. Directories on the way are made; what is there already is
replaced, but a directory stays where another one is put. -/
def put (leaf : FileTree) : List String → FileTree → FileTree
  | [], .directory es =>
    match leaf with
    | .directory _ => .directory es
    | .file bs => .file bs
  | [], .file _ => leaf
  | p :: ps, .directory es => .directory (putEntry leaf p ps es)
  | p :: ps, .file _ => .directory [(p, graft leaf ps)]

/-- The entries of a directory with something put below one of them. -/
def putEntry (leaf : FileTree) (p : String) (ps : List String) : List (String × FileTree) → List (String × FileTree)
  | [] => [(p, graft leaf ps)]
  | (q, t) :: es => if q = p then (q, put leaf ps t) :: es else (q, t) :: putEntry leaf p ps es

/-- Something inside new directories. -/
def graft (leaf : FileTree) : List String → FileTree
  | [] => leaf
  | p :: ps => .directory [(p, graft leaf ps)]

end

end FileTree

/-- The files that a program sees: the tree of all of them, and the names that lead from its top to the directory in
which the program runs. -/
structure Disk where
  tree : FileTree
  place : List String

namespace Disk

def find? (d : Disk) (p : Path) : Option FileTree := FileTree.descend [] d.tree (p.absolute d.place)

/-- The bytes of the file at a path, if there is a file. -/
def content? (d : Disk) (p : Path) : Option (List UInt8) :=
  match d.find? p with
  | some (.file bs) => some bs
  | _ => none

/-- The names that lead from the top to what a path means. -/
def resolved (d : Disk) (p : Path) : List String := Path.normal (p.absolute d.place)

/-- The path from the top to what a path means, as a text. -/
def location (d : Disk) (p : Path) : String := "/" ++ "/".intercalate (d.resolved p)

end Disk

end CommentGrade
