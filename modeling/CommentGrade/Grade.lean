import CommentGrade.Number.Binary
import CommentGrade.Text.Position
import CommentGrade.Readability.Stats

/-!
# Grades

A grade is the integer part of a median. Its ordinal ends in `st`, `nd`, `rd` or `th`; above 20 the last digit
decides. A comment whose median is above zero gets a note on its line.
-/
namespace CommentGrade

open Number Readability

namespace Grade

/-- The ending of the ordinal of a grade. -/
def suffix (grade : Int) : String :=
  let g := if 20 < grade then grade.fmod 10 else grade
  if g = 1 then "st" else if g = 2 then "nd" else if g = 3 then "rd" else "th"

/-- The ordinal of a grade. -/
def label (grade : Int) : String := toString grade ++ suffix grade

section Numbers

variable {α : Type} [Placed α]

/-- The ending of the ordinal of a number, which is the one of its integer part. -/
def suffixOf (x : α) : Except NotFinite String := (Placed.floor x).map suffix

/-- The ordinal of the integer part of a number. -/
def labelOf (x : α) : Except NotFinite String := (Placed.floor x).map label

end Numbers

end Grade

/-- A note about the reading level of the comment on a line. -/
structure LevelNote where
  line : Int
  grade : Int
  deriving DecidableEq, Repr

namespace LevelNote

def title (n : LevelNote) : String := "Predicted reading level of " ++ Grade.label n.grade ++ " grade"

def tooltip : String :=
  "A grade median calculated from the following readability tests: " ++
    "Flesch Kincaid Grade, Flesch Reading Ease (interpreted as a grade), SMOG Index, " ++
    "Coleman Liau Index, Automated Readability Index, Dale Chall Readability Score, " ++
    "Linsear Write Formula, Gunning Fog Index"

variable {α : Type} [OfScientific α] [Placed α]

/-- The note for a line whose comment has these metrics. A median that is not above zero is no grade. -/
def of? (line : Int) (stats : Stats α) : Except NotFinite (Option LevelNote) :=
  match Placed.compareInt stats.textMedian 0 with
  | some .lt | some .eq => .ok none
  | some .gt | none => (Placed.floor stats.textMedian).map fun g => some ⟨line, g⟩

end LevelNote

end CommentGrade
