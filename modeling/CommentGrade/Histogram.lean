import CommentGrade.CommandLine.Run
import CommentGrade.Files.Writing

/-!
# Histograms of grades

How many comments there are of each grade in the files that paths stand for. Comments without a grade are not counted.
The grades are written to a file in ascending order, one on a line with its count.
-/
namespace CommentGrade.Histogram

open CommandLine Number Readability

/-- The choices of a command line for a histogram. -/
structure Options where
  target : String := "grades.txt"
  minCount : Int := 1
  multilineComments : Bool := true
  deriving DecidableEq, Repr

def Options.grammar : Grammar Options where
  short := [('h', .help)]
  long := [
    ("help", .switch .help),
    ("out", .value fun v o => .ok { o with target := v }),
    ("min-count", integerRule "--min-count" fun n o => { o with minCount := n }),
    ("no-multiline", .switch (.set fun o => { o with multilineComments := false }))]

section Counting

variable {α : Type} [OfScientific α] [Placed α]

/-- The grades of the comments of an analysis, in order. -/
def gradesOf : List (Graded α) → Except NotFinite (List Int)
  | [] => .ok []
  | g :: gs =>
    if Placed.above g.stats.textMedian 0 then do
      let grade ← Placed.floor g.stats.textMedian
      let rest ← gradesOf gs
      return grade :: rest
    else gradesOf gs

/-- The grades of the comments of all analyses. -/
def allGrades (as : List (Analysis α)) : Except NotFinite (List Int) := gradesOf (as.flatMap (·.graded))

end Counting

/-- Each grade with the number of its occurrences, in ascending order. -/
def tally (grades : List Int) : List (Int × Nat) :=
  (grades.eraseDups.mergeSort fun a b => decide (a ≤ b)).map fun g => (g, grades.count g)

/-- The grades that occur often enough. -/
def rows (minCount : Int) (counts : List (Int × Nat)) : List (Int × Nat) :=
  counts.filter fun r => decide (minCount ≤ r.2)

/-- A grade and its count on a line. -/
def rowText (r : Int × Nat) : String := Grade.label r.1 ++ "\t" ++ toString r.2

inductive Failure where
  | stop (s : Stop)
  | grade (e : NotFinite)
  | write (e : WriteError)
  deriving DecidableEq, Repr

/-- What a histogram leaves behind: what is printed, the path of the file that was written, its content, and the disk
with it. -/
structure Output where
  printed : String
  target : String
  content : String
  disk : Disk

section Run

variable {α : Type} [Add α] [Sub α] [Mul α] [Div α] [OfScientific α] [NatCast α] [LE α] [DecidableLE α] [LT α]
  [DecidableLT α] [BEq α] [Measure α] [Placed α]

def Options.settings (o : Options) : Settings Bool :=
  { Settings.defaults id with multilineComments := o.multilineComments }

/-- The analyses of the files that paths stand for. -/
def analyses (f : Formulas α) (s : Settings Bool) (disk : Disk) (paths : List String) : List (Analysis α) :=
  Files.analyses (Files.analyse f disk s none) 1 (Files.listed disk none paths)

/-- How often each grade occurs in the files that paths stand for. -/
def gather (f : Formulas α) (s : Settings Bool) (disk : Disk) (paths : List String) :
    Except NotFinite (List (Int × Nat)) :=
  (allGrades (analyses f s disk paths)).map tally

def run (f : Formulas α) (disk : Disk) (arguments : List String) : Except Failure Output := do
  let (o, paths) ← (Options.grammar.parse {} arguments).mapError .stop
  let counts ← (gather f o.settings disk paths).mapError .grade
  let rs := rows o.minCount counts
  let content := "\n".intercalate (rs.map rowText)
  let disk ← (disk.write o.target content.toUTF8.toList).mapError .write
  return ⟨"Wrote " ++ toString rs.length ++ " grades to " ++ o.target ++ "\n", o.target, content, disk⟩

end Run

end CommentGrade.Histogram
