import CommentGrade.Proofs.Number.Range

/-!
# Exact numbers with special values

Numbers as doubles have them, infinities and what is not a number included, but without rounding. They tell what a
median is when no sum is rounded, and still let a formula give a value that is not finite.
-/
namespace CommentGrade.Number

inductive Exact where
  | finite (x : Rat)
  | infinite (negative : Bool)
  | notANumber
  deriving DecidableEq, Repr

namespace Exact

def add : Exact → Exact → Exact
  | .finite x, .finite y => .finite (x + y)
  | .infinite s, .infinite t => if s = t then .infinite s else .notANumber
  | .infinite s, .finite _ | .finite _, .infinite s => .infinite s
  | .notANumber, _ | _, .notANumber => .notANumber

/-- The quotient. There is one zero only, so the sign of a quotient by zero is the one of the dividend. -/
def div : Exact → Exact → Exact
  | .finite x, .finite y =>
    if y = 0 then if x = 0 then .notANumber else .infinite (decide (x < 0)) else .finite (x / y)
  | .infinite s, .finite y => .infinite (s != decide (y < 0))
  | .finite _, .infinite _ => .finite 0
  | .infinite _, .infinite _ => .notANumber
  | .notANumber, _ | _, .notANumber => .notANumber

/-- The order; what is not a number has no place in it. -/
def compare? : Exact → Exact → Option Ordering
  | .finite x, .finite y => some (if x < y then .lt else if x = y then .eq else .gt)
  | .infinite s, .finite _ => some (if s then .lt else .gt)
  | .finite _, .infinite s => some (if s then .gt else .lt)
  | .infinite s, .infinite t => some (if s = t then .eq else if s then .lt else .gt)
  | .notANumber, _ | _, .notANumber => none

instance : Add Exact := ⟨add⟩

instance : Div Exact := ⟨div⟩

instance : OfScientific Exact :=
  ⟨fun mantissa negative exponent => .finite (OfScientific.ofScientific mantissa negative exponent)⟩

instance : BEq Exact := ⟨fun x y => compare? x y == some .eq⟩

instance : LT Exact := ⟨fun x y => compare? x y = some .lt⟩

instance : LE Exact := ⟨fun x y => compare? x y = some .lt ∨ compare? x y = some .eq⟩

instance : DecidableLT Exact := fun x y => inferInstanceAs (Decidable (compare? x y = some .lt))

instance : DecidableLE Exact := fun x y =>
  inferInstanceAs (Decidable (compare? x y = some .lt ∨ compare? x y = some .eq))

instance : Measure Exact where
  ofInt? n := some (.finite n)
  isFinite
    | .finite _ => true
    | _ => false

theorem finite_add (x y : Rat) : Exact.finite x + Exact.finite y = .finite (x + y) := rfl

theorem finite_div {y : Rat} (hy : y ≠ 0) (x : Rat) : Exact.finite x / Exact.finite y = .finite (x / y) :=
  if_neg hy

theorem finite_le_finite {x y : Rat} : Exact.finite x ≤ Exact.finite y ↔ x ≤ y := by
  change compare? (.finite x) (.finite y) = some .lt ∨ compare? (.finite x) (.finite y) = some .eq ↔ x ≤ y
  rw [Rat.le_iff_lt_or_eq]
  simp only [compare?]
  split_ifs with hlt heq <;> simp [*]

theorem exists_finite {x : Exact} (hx : Measure.isFinite x = true) : ∃ q, x = .finite q := by
  cases x with
  | finite q => exact ⟨q, rfl⟩
  | infinite s | notANumber => cases hx

theorem exists_map_finite {xs : List Exact} (h : ∀ x ∈ xs, Measure.isFinite x = true) :
    ∃ qs : List Rat, xs = qs.map .finite := by
  induction xs with
  | nil => exact ⟨[], rfl⟩
  | cons x xs ih =>
    obtain ⟨q, rfl⟩ := exists_finite (h x List.mem_cons_self)
    obtain ⟨qs, rfl⟩ := ih fun y hy => h y (List.mem_cons_of_mem _ hy)
    exact ⟨q :: qs, rfl⟩

end Exact

end CommentGrade.Number
