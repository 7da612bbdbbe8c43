import CommentGrade.Analysis.Text

/-!
# Structured reports

An analysis as a value, with its keys in a fixed order. How a number is written is a parameter.
-/
namespace CommentGrade

open Readability

variable {α : Type} (number : α → Value)

/-- A value, or null where there is none. -/
def Value.orNull {β : Type} (f : β → Value) : Option β → Value
  | none => .null
  | some b => f b

def Fence.toValue (f : Fence α) : Value :=
  .object [("lower_extreme", number f.lowerExtreme), ("lower_quartile", number f.lowerQuartile),
    ("upper_quartile", number f.upperQuartile), ("upper_extreme", number f.upperExtreme),
    ("median", number f.median)]

def Readability.Table.toValue (t : Table α) : Value := .object (t.map fun e => (e.1, number e.2))

def Readability.Stats.toValue (s : Stats α) : Value :=
  .object (MetricTable.all.map fun t => (t.name, Table.toValue number (s.table t)))

namespace Summary

/-- One entry for each metric of each table. -/
def tablesValue (s : Summary α) (entry : Column α → Value) : Value :=
  .object (s.columns.map fun c => (c.1.name, .object (c.2.map fun column => (column.metric, entry column))))

def toValue (s : Summary α) : Value :=
  .object [
    ("total", .int s.total),
    ("kinds", .object (s.kinds.map fun k => (k.1.name, number k.2))),
    ("fences", s.tablesValue fun c => Value.orNull (Fence.toValue number) c.fence),
    ("means", s.tablesValue fun c => Value.orNull number c.mean),
    ("median_grade", Value.orNull number s.medianGrade)]

end Summary

/-- The entries of a comment in a report. -/
def Comment.entries (c : Comment) : List (String × Value) :=
  [("kind", .str c.kind.name), ("start", .int c.start), ("end", .int c.stop), ("line", .int c.line),
    ("text", .str c.text)]

def Comment.toValue (c : Comment) : Value := .object c.entries

def Graded.toValue (g : Graded α) : Value :=
  .object (g.comment.entries ++ [("stats", Stats.toValue number g.stats)])

def LevelNote.toValue (n : LevelNote) : Value :=
  .object [("line", .int n.line), ("grade", .int n.grade), ("title", .str n.title),
    ("tooltip", .str LevelNote.tooltip)]

/-- The entries of an analysis in a report. -/
def Analysis.entries [OfScientific α] [Number.Placed α] (a : Analysis α) :
    Except Number.NotFinite (List (String × Value)) := do
  let notes ← a.notes
  return [
    ("file", Value.orNull .str a.file),
    ("language_id", .str a.languageId),
    ("supported", .bool a.supported),
    ("comments", .list (a.graded.map (Graded.toValue number))),
    ("annotations", .list (notes.map LevelNote.toValue)),
    ("summary", a.summary.toValue number)]

end CommentGrade
