import CommentGrade.Number.Measure

/-!
# Outcomes of formulas

A formula gives a number, a whole number, nothing, or fails. `Outcome.settle` makes a finite number of it: what a
formula cannot define is 0. Only faults that say nothing about the text are passed on.
-/
namespace CommentGrade.Readability

open Number

inductive Cause where
  | zeroDivision
  | overflow
  | floatingPoint
  | value
  | type
  | index
  | other (name : String)
  deriving DecidableEq, Repr

structure Fault where
  cause : Cause
  message : String
  deriving DecidableEq, Repr

/-- Whether a failure only means that the formula is not defined for the text. -/
def Cause.undefinedHere : Cause → Bool
  | .zeroDivision | .value | .type | .index => true
  | .overflow | .floatingPoint | .other _ => false

/-- A whole number beyond the range of measures. -/
def Fault.tooLarge : Fault := ⟨.overflow, "int too large to convert to float"⟩

inductive Outcome (α : Type) where
  | number (x : α)
  | whole (n : Int)
  | nothing
  | fault (f : Fault)
  deriving Repr

variable {α : Type} [OfScientific α] [Measure α]

/-- A number that is finite, else 0. -/
def finiteOrZero (x : α) : α := if Measure.isFinite x then x else 0.0

/-- The finite number that an outcome counts as. -/
def Outcome.settle : Outcome α → Except Fault α
  | .number x => .ok (finiteOrZero x)
  | .whole n =>
    match Measure.ofInt? n with
    | some x => .ok (finiteOrZero x)
    | none => .error .tooLarge
  | .nothing => .ok 0.0
  | .fault f => if f.cause.undefinedHere then .ok 0.0 else .error f

end CommentGrade.Readability
