import CommentGrade.Comment.Extraction
import CommentGrade.Summary.Boxplot

/-!
# Summaries

What the comments of a text have in common: how many there are, the share of each kind, the box plot and the mean
of each metric, and the median of the grades.
-/
namespace CommentGrade

open Readability

structure Column (α : Type) where
  metric : String
  fence : Option (Fence α)
  mean : Option α
  deriving DecidableEq, Repr

/-- What is said about a list of comments. -/
structure Summary (α : Type) where
  total : Nat
  kinds : List (CommentKind × α)
  columns : List (MetricTable × List (Column α))
  medianGrade : Option α
  deriving DecidableEq, Repr

inductive SummaryError where
  | lengths (stats kinds : Nat)
  | index (e : OutOfRange)
  deriving DecidableEq, Repr

def SummaryError.message : SummaryError → String
  | .lengths stats kinds =>
    "stats and kinds differ in length: " ++ toString stats ++ " != " ++ toString kinds
  | .index e => e.message

namespace Summary

variable {α : Type}

/-- The summary of no comments: there is a column for each metric, with nothing in it. -/
def empty : Summary α where
  total := 0
  kinds := []
  columns := MetricTable.all.map fun t => (t, t.metrics.map fun m => ⟨m, none, none⟩)
  medianGrade := none

def isEmpty (s : Summary α) : Bool := s.total == 0

def columnsOf (s : Summary α) (t : MetricTable) : List (Column α) := (s.columns.lookup t).getD []

/-- The box plot of a metric, if the table and the metric exist. -/
def fence? (s : Summary α) (table metric : String) : Option (Fence α) := do
  let t ← MetricTable.ofName? table
  let c ← (s.columnsOf t).find? (·.metric == metric)
  c.fence

variable [Add α] [Mul α] [Div α] [OfScientific α] [NatCast α]

/-- The share of each kind in percent, in the order in which the kinds first occur. -/
def kindShares (kinds : List CommentKind) : List (CommentKind × α) :=
  kinds.eraseDups.map fun k => (k, (kinds.count k : α) / (kinds.length : α) * 100.0)

def mean (xs : List α) : α := xs.foldl (· + ·) 0.0 / (xs.length : α)

variable [Sub α] [LE α] [DecidableLE α]

/-- The column of a metric: what its values over all comments have in common. -/
def column (stats : List (Stats α)) (t : MetricTable) (metric : String) : Except OutOfRange (Column α) := do
  let values := stats.map (·.value t metric)
  let fence ← Fence.ofValues? values
  return ⟨metric, fence, some (mean values)⟩

/-- The summary of comments that there is at least one of. -/
def ofComments (stats : List (Stats α)) (kinds : List CommentKind) : Except OutOfRange (Summary α) := do
  let columns ← MetricTable.all.mapM fun t => do
    let cs ← t.metrics.mapM (column stats t)
    return (t, cs)
  let grades := ascending (stats.map Stats.textMedian)
  let median ← Fence.medianOfRange grades 0 grades.length
  return ⟨stats.length, kindShares kinds, columns, some median⟩

/-- The summary of comments, given by their metrics and their kinds. -/
def make (stats : List (Stats α)) (kinds : List CommentKind) : Except SummaryError (Summary α) :=
  if stats.length ≠ kinds.length then .error (.lengths stats.length kinds.length)
  else if stats.isEmpty then .ok empty
  else (ofComments stats kinds).mapError .index

end Summary

end CommentGrade
