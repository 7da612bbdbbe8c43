import CommentGrade.Analysis.Text
import CommentGrade.Number.Fixed
import CommentGrade.ReadingTime

/-!
# Reports in lines

For each file the comments with a grade, one line each, then if wanted the time it takes to read the file and the
summary of its metrics; at the end the number of the comments shown and of the files.
-/
namespace CommentGrade.Report

open Number Readability

/-- The longest part of a comment that is shown. -/
def snippetLength : Nat := 60

/-- A comment on one line: its words with single blanks between them, cut off if there are too many. -/
def snippet (cs : List Char) : List Char :=
  let flat := [' '].intercalate (Text.words cs)
  if snippetLength < flat.length then flat.take (snippetLength - 3) ++ ['.', '.', '.'] else flat

structure Finding where
  position : Position
  note : LevelNote
  snippet : List Char
  deriving DecidableEq, Repr

/-- Where a note stands: where its comment starts, if that is on the line of the note, else at the beginning of
the line. -/
def placeOf (text : List Char) (c : Comment) (n : LevelNote) : Position :=
  let p := Text.positionAt text c.start
  if (p.line : Int) = n.line then p else ⟨n.line.toNat, 0⟩

/-- A finding as a line, with line and column counted from one. -/
def Finding.text (file : String) (f : Finding) : String :=
  file ++ ":" ++ toString (f.position.line + 1) ++ ":" ++ toString (f.position.column + 1) ++ ": " ++
    f.note.title ++ " | " ++ String.ofList f.snippet

inductive ReportError where
  | grade (e : NotFinite)
  | readingTime (e : ReadingTime.Error)
  deriving DecidableEq, Repr

def ReportError.message : ReportError → String
  | .grade e => e.message
  | .readingTime e => e.message

section Findings

variable {α : Type} [OfScientific α] [Placed α]

/-- The findings among graded comments, from a grade on. -/
def findingsOf (text : List Char) (minGrade : Int) : List (Graded α) → Except NotFinite (List Finding)
  | [] => .ok []
  | g :: gs => do
    let note ← LevelNote.of? g.comment.line g.stats
    let rest ← findingsOf text minGrade gs
    match note with
    | some n =>
      if n.grade < minGrade then return rest
      else return ⟨placeOf text g.comment n, n, snippet g.comment.text.toList⟩ :: rest
    | none => return rest

/-- The findings of an analysis, from a grade on. -/
def findings (minGrade : Int) (a : Analysis α) : Except NotFinite (List Finding) :=
  findingsOf a.text.toList minGrade a.graded

end Findings

section Summaries

variable {α : Type} (fixed : Nat → α → String)

/-- A number with two decimal places in a column of eight characters. -/
def cell (x : α) : String := alignRight 8 (fixed 2 x)

/-- The line of a metric; there is none without a box plot. -/
def columnLine [OfScientific α] (c : Column α) : Option String :=
  c.fence.map fun f =>
    "    " ++ alignLeft 30 c.metric ++ " mean=" ++ cell fixed (c.mean.getD 0.0) ++ " median=" ++ cell fixed f.median ++
      " q1=" ++ cell fixed f.lowerQuartile ++ " q3=" ++ cell fixed f.upperQuartile

/-- The lines of a summary; there are none of an empty one. -/
def summaryLines [OfScientific α] (s : Summary α) : List String :=
  if s.isEmpty then []
  else
    let share (k : CommentKind × α) : String := k.1.name ++ "=" ++ fixed 0 k.2 ++ "%"
    ("  comments: " ++ toString s.total ++ " (" ++ ", ".intercalate (s.kinds.map share) ++ ")") ::
      (s.medianGrade.map fun g => "  median grade: " ++ fixed 1 g).toList ++
      s.columns.flatMap fun t => ("  [" ++ t.1.name ++ "]") :: t.2.filterMap (columnLine fixed)

end Summaries

structure View where
  notes : Bool
  minGrade : Int
  readingTime : Bool
  summary : Bool
  deriving DecidableEq, Repr

section Reports

variable {α : Type} [OfScientific α] [Placed α]

/-- The line with the time that it takes to read a text. -/
def readingTimeLine (file : String) (text : List Char) : Except ReportError String :=
  match ReadingTime.estimate text 0 ReadingTime.usualSpeed with
  | .ok clock => .ok (file ++ ": Est " ++ clock.text ++ " min")
  | .error e => .error (.readingTime e)

/-- The findings that a view shows of an analysis. -/
def View.findings (v : View) (a : Analysis α) : Except NotFinite (List Finding) :=
  if v.notes then Report.findings v.minGrade a else .ok []

/-- The lines about a file after its findings. -/
def trailer (fixed : Nat → α → String) (v : View) (file : String) (a : Analysis α) :
    Except ReportError (List String) := do
  let time ← if v.readingTime then (readingTimeLine file a.text.toList).map ([·]) else .ok []
  return time ++ if v.summary then (file ++ ":") :: summaryLines fixed a.summary else []

/-- The lines about files, with the number of findings. Where a file is on the disk is a parameter. -/
def fileLines (fixed : Nat → α → String) (v : View) (place : Option String → String) :
    List (Analysis α) → Except ReportError (List String × Nat)
  | [] => .ok ([], 0)
  | a :: as => do
    let found ← (v.findings a).mapError .grade
    let after ← trailer fixed v (place a.file) a
    let (lines, count) ← fileLines fixed v place as
    return (found.map (Finding.text (place a.file)) ++ after ++ lines, found.length + count)

/-- The line at the end of a report. -/
def totalLine (findings files : Nat) : String :=
  "Total: " ++ toString findings ++ " comment(s) in " ++ toString files ++ " file(s)"

def lines (fixed : Nat → α → String) (v : View) (place : Option String → String) (as : List (Analysis α)) :
    Except ReportError (List String) := do
  let (body, count) ← fileLines fixed v place as
  return body ++ [totalLine count as.length]

end Reports

end CommentGrade.Report
