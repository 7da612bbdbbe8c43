import CommentGrade.Files.Tree
import CommentGrade.Text.Quoted

/-!
# Writing a file

A file is written into a directory that is there already; what the file held before is lost.
-/
namespace CommentGrade

/-- Why a file is not written: its directory is missing or no directory, or the file is a directory itself. -/
inductive WriteFault where
  | missing
  | notDirectory
  | directory
  deriving DecidableEq, Repr

/-- A file that is not written. -/
structure WriteError where
  fault : WriteFault
  path : String
  deriving DecidableEq, Repr

def WriteError.message (e : WriteError) : String :=
  let reason := match e.fault with
    | .missing => "[Errno 2] No such file or directory"
    | .notDirectory => "[Errno 20] Not a directory"
    | .directory => "[Errno 21] Is a directory"
  reason ++ ": " ++ Text.quoted e.path

namespace Disk

def isFile (d : Disk) (p : Path) : Bool := (d.content? p).isSome

def isDirectory (d : Disk) (p : Path) : Bool :=
  match d.find? p with
  | some (.directory _) => true
  | _ => false

/-- Why no file can be written at a path, if there is a reason. -/
def writeFault? (d : Disk) (p : Path) : Option WriteFault :=
  let parent : Path := { p with parts := p.parts.dropLast }
  if d.isDirectory p then some .directory
  else if d.isDirectory parent then none
  else if (List.range p.parts.length).any fun n => d.isFile { p with parts := p.parts.take n } then
    some .notDirectory
  else some .missing

/-- The disk with a file written at a path. -/
def write (d : Disk) (path : String) (bs : List UInt8) : Except WriteError Disk :=
  let p := Path.ofString path
  match d.writeFault? p with
  | some fault => .error ⟨fault, p.text⟩
  | none => .ok { d with tree := .put (.file bs) (d.resolved p) d.tree }

end Disk

end CommentGrade
