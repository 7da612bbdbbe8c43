import CommentGrade.Number.Numeral
import CommentGrade.Number.Binary

/-!
# Measures

What the scores are computed in. Doubles are bounded and have values that are not finite; rationals have neither
limit, so a law about scores that does not depend on rounding is a law about rationals.
-/
namespace CommentGrade.Number

/-- Numbers that count things and may fail to be finite. -/
class Measure (α : Type) where
  /-- The measure equal to an integer, up to rounding; integers beyond the range have none. -/
  ofInt? : Int → Option α
  isFinite : α → Bool

instance : Measure Float where
  ofInt? n :=
    let x := signedFloat (decide (n < 0)) (nearestFloat n.natAbs 0)
    if x.isInf then none else some x
  isFinite x := x.isFinite

instance : Measure Rat where
  ofInt? n := some n
  isFinite _ := true

instance floatOfNat : NatCast Float := ⟨Float.ofNat⟩

instance floatOfInt : IntCast Float := ⟨Float.ofInt⟩

end CommentGrade.Number
