import CommentGrade.Readability.Evaluation

/-!
# Box plots

The quartiles are the medians of the two halves of the ascending values. If their number is odd, the median
itself belongs to neither half. The fences lie one and a half times the distance of the quartiles outside of
them.
-/
namespace CommentGrade

/-- An index that a list does not have. -/
inductive OutOfRange where
  | outOfRange
  deriving DecidableEq, Repr

def OutOfRange.message : OutOfRange → String
  | .outOfRange => "list index out of range"

structure Fence (α : Type) where
  lowerExtreme : α
  lowerQuartile : α
  upperQuartile : α
  upperExtreme : α
  median : α
  deriving DecidableEq, Repr

namespace Fence

variable {α : Type}

def toList (f : Fence α) : List α :=
  [f.lowerExtreme, f.lowerQuartile, f.upperQuartile, f.upperExtreme, f.median]

/-- The item at an index; a negative index counts from the end. -/
def item (xs : List α) (i : Int) : Except OutOfRange α :=
  let i := if i < 0 then i + xs.length else i
  if i < 0 then .error .outOfRange
  else match xs[i.toNat]? with
    | some x => .ok x
    | none => .error .outOfRange

variable [Add α] [Div α] [OfScientific α]

/-- The median of the part of an ascending list from index `first` up to, not including, index `last`. -/
def medianOfRange (xs : List α) (first last : Int) : Except OutOfRange α := do
  let count := last - first
  let half := count.fdiv 2
  if count.fmod 2 = 1 then item xs (first + half)
  else
    let a ← item xs (first + half - 1)
    let b ← item xs (first + half)
    return (a + b) / 2.0

variable [Sub α] [Mul α] [LE α] [DecidableLE α]

/-- The distance of a number from zero. -/
def magnitude (x : α) : α := if x ≤ 0.0 then 0.0 - x else x

/-- The box plot around two quartiles and a median. -/
def around (lower upper median : α) : Fence α :=
  let range := magnitude (upper - lower)
  ⟨lower - 1.5 * range, lower, upper, upper + 1.5 * range, median⟩

/-- The box plot of values; there is none of no values. -/
def ofValues? (xs : List α) : Except OutOfRange (Option (Fence α)) :=
  match Readability.ascending xs with
  | [] => .ok none
  | [x] => .ok (some ⟨x, x, x, x, x⟩)
  | sorted => do
    let n : Nat := sorted.length
    let median ← medianOfRange sorted 0 n
    let lower ← medianOfRange sorted 0 (n / 2 : Nat)
    let upper ← medianOfRange sorted (n / 2 + n % 2 : Nat) n
    return some (around lower upper median)

end Fence

end CommentGrade
