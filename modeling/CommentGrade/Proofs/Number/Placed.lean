import CommentGrade.Number.Binary
import Mathlib.Data.Rat.Floor
import Mathlib.Algebra.Order.Floor.Ring

/-!
# Numbers among the integers

The integer part of a number fits how it compares to integers: it is the greatest integer that is not above the number.
This holds for fractions, and for doubles with their special values.
-/
namespace CommentGrade.Number

/-- The integer part of a number and its place among the integers fit each other. -/
class Placed.Lawful (α : Type) [Placed α] : Prop where
  above_of_lt_floor {x : α} {k n : Int} : floor x = .ok k → n < k → above x n = true
  le_floor_of_above {x : α} {k n : Int} : floor x = .ok k → above x n = true → n ≤ k
  above_of_le {x : α} {m n : Int} : m ≤ n → above x n = true → above x m = true

/-- What has an integer part has a place among the integers. -/
class Placed.Comparable (α : Type) [Placed α] : Prop where
  isSome_compareInt {x : α} {k : Int} (n : Int) : floor x = .ok k → (compareInt x n).isSome = true

theorem Placed.above_rat_iff {x : Rat} {n : Int} : above x n = true ↔ (n : Rat) < x := by
  have hcompare : compareInt x n = some (if x < n then .lt else if x = n then .eq else .gt) := rfl
  rw [above, hcompare]
  rcases lt_trichotomy x n with hlt | heq | hgt
  · simp [hlt, hlt.not_gt]
  · simp [heq]
  · simp [hgt, hgt.not_gt, hgt.ne']

instance : Placed.Lawful Rat where
  above_of_lt_floor := by
    intro x k n hk hn
    obtain rfl : x.floor = k := Except.ok.inj hk
    exact Placed.above_rat_iff.mpr (lt_of_lt_of_le (by exact_mod_cast hn) (Rat.floor_le x))
  le_floor_of_above := by
    intro x k n hk hn
    obtain rfl : x.floor = k := Except.ok.inj hk
    exact Rat.le_floor_iff.mpr (le_of_lt (Placed.above_rat_iff.mp hn))
  above_of_le := by
    intro x m n hmn hn
    exact Placed.above_rat_iff.mpr (lt_of_le_of_lt (by exact_mod_cast hmn) (Placed.above_rat_iff.mp hn))

instance : Placed.Comparable Rat where
  isSome_compareInt _ _ := rfl

namespace Binary

variable {x : Binary} {k m n : Int}

/-- A finite value is above an integer if its numerator is above the integer over the same power of two. -/
theorem compareInt_finite {negative : Bool} {mantissa : Nat} {e : Int} :
    (finite negative mantissa e).compareInt n = some .gt ↔
      n * (Nat.pow 2 (scale e).2 : Nat) < numerator negative mantissa e := by
  rw [compareInt, Option.some.injEq, compare_gt_iff_gt]

theorem floor_finite {negative : Bool} {mantissa : Nat} {e : Int} (h : (finite negative mantissa e).floor = .ok k) :
    ∃ q : Int, 0 < q ∧ q = (Nat.pow 2 (scale e).2 : Nat) ∧ k * q ≤ numerator negative mantissa e ∧
      numerator negative mantissa e < (k + 1) * q := by
  obtain rfl := Except.ok.inj h
  have hq : 0 < ((Nat.pow 2 (scale e).2 : Nat) : Int) := by exact_mod_cast Nat.pow_pos Nat.two_pos
  refine ⟨_, hq, rfl, ?_, ?_⟩
  · rw [Int.fdiv_eq_ediv_of_nonneg _ hq.le]
    exact Int.ediv_mul_le _ hq.ne'
  · rw [Int.fdiv_eq_ediv_of_nonneg _ hq.le]
    exact Int.lt_ediv_add_one_mul_self _ hq

theorem gt_of_lt_floor (hk : x.floor = .ok k) (hn : n < k) : x.compareInt n = some .gt := by
  cases x with
  | finite negative mantissa e =>
    obtain ⟨q, hq, hscale, hle, -⟩ := floor_finite hk
    rw [compareInt_finite, ← hscale]
    exact lt_of_lt_of_le (mul_lt_mul_of_pos_right hn hq) hle
  | infinite negative | notANumber => cases hk

theorem le_floor_of_gt (hk : x.floor = .ok k) (hn : x.compareInt n = some .gt) : n ≤ k := by
  cases x with
  | finite negative mantissa e =>
    obtain ⟨q, hq, hscale, -, hlt⟩ := floor_finite hk
    rw [compareInt_finite, ← hscale] at hn
    exact Int.lt_add_one_iff.mp (lt_of_mul_lt_mul_right (hn.trans hlt) hq.le)
  | infinite negative | notANumber => cases hk

theorem gt_of_le (hmn : m ≤ n) (hn : x.compareInt n = some .gt) : x.compareInt m = some .gt := by
  cases x with
  | finite negative mantissa e =>
    rw [compareInt_finite] at hn ⊢
    exact lt_of_le_of_lt (mul_le_mul_of_nonneg_right hmn (Int.natCast_nonneg _)) hn
  | infinite negative => exact hn
  | notANumber => cases hn

theorem isSome_compareInt (n : Int) (hk : x.floor = .ok k) : (x.compareInt n).isSome = true := by
  cases x with
  | finite negative mantissa e => rfl
  | infinite negative | notANumber => cases hk

end Binary

instance : Placed.Comparable Float where
  isSome_compareInt n hk := Binary.isSome_compareInt n hk

instance : Placed.Lawful Float where
  above_of_lt_floor hk hn := beq_iff_eq.mpr (Binary.gt_of_lt_floor hk hn)
  le_floor_of_above hk hn := Binary.le_floor_of_gt hk (beq_iff_eq.mp hn)
  above_of_le hmn hn := beq_iff_eq.mpr (Binary.gt_of_le hmn (beq_iff_eq.mp hn))

end CommentGrade.Number
