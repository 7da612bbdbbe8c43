import CommentGrade.Histogram

/-!
# The program

Reads the files at the current directory and at the paths that the arguments name, runs an analysis on them, and prints
what it leaves behind.
-/
namespace CommentGrade

/-- The tree of an entry of a directory. -/
partial def readEntry (e : IO.FS.DirEntry) : IO (String × FileTree) := do
  if ← e.path.isDir then
    let entries ← e.path.readDir
    let trees ← entries.toList.mapM readEntry
    return (e.fileName, .directory trees)
  else
    let content ← IO.FS.readBinFile e.path
    return (e.fileName, .file content.toList)

/-- Places without those that are below another one. -/
def outermost (places : List (List String)) : List (List String) :=
  (places.filter fun names => !places.any fun above => above != names && above.isPrefixOf names).eraseDups

/-- The disk as far as paths lead from the current directory. -/
def readDisk (paths : List Path) : IO Disk := do
  let here ← IO.currentDir
  let place := Path.components here.toString
  let tree ← (outermost (place :: paths.map fun p => Path.normal (p.absolute place))).foldlM (fun tree names => do
      let e : IO.FS.DirEntry := ⟨here, "/" ++ "/".intercalate names⟩
      if ← e.path.pathExists then
        let (_, found) ← readEntry e
        return .put found names tree
      else return tree) FileTree.empty
  return ⟨tree, place⟩

/-- The paths that the arguments of an analysis name. -/
def CommandLine.namedPaths (arguments : List String) : List Path :=
  match Options.parse arguments with
  | .ok (o, paths) => (paths ++ o.settingsPath.toList).map Path.ofString
  | .error _ => []

/-- The paths that the arguments of a histogram name; of the file that is written it is the directory. -/
def Histogram.namedPaths (arguments : List String) : List Path :=
  match Options.grammar.parse {} arguments with
  | .ok (o, paths) =>
    let target := Path.ofString o.target
    paths.map Path.ofString ++ [{ target with parts := target.parts.dropLast }]
  | .error _ => []

/-- Writes texts to the standard error, each on a line of its own. -/
def complain (messages : List String) : IO Unit := messages.forM fun m => IO.eprintln m

def analyseFiles (arguments : List String) : IO UInt32 := do
  let disk ← readDisk (CommandLine.namedPaths arguments)
  match CommandLine.run CommandLine.Environment.english disk arguments with
  | .ok o =>
    complain o.messages
    IO.print o.printed
    return o.code.toUInt32
  | .error e =>
    complain [e.message]
    return 1

/-- Counts the grades in the files that the arguments name and writes the histogram. -/
def countGrades (arguments : List String) : IO UInt32 := do
  let disk ← readDisk (Histogram.namedPaths arguments)
  match Histogram.run Readability.english disk arguments with
  | .ok o =>
    IO.FS.writeFile o.target o.content
    IO.print o.printed
    return 0
  | .error (.stop .help) => return 0
  | .error (.stop (.usage _)) => return 2
  | .error (.grade e) =>
    complain [e.message]
    return 1
  | .error (.write e) =>
    complain [e.message]
    return 1

end CommentGrade

def main (arguments : List String) : IO UInt32 := CommentGrade.analyseFiles arguments
