/-!
# The exact value of a floating-point number

A finite double is an integer times a power of two. Rounding to decimal places and taking the floor are done
on that integer, so neither loses anything to a second rounding.
-/
namespace CommentGrade.Number

/-- What a double stands for: `mantissa * 2 ^ exponent` with a sign, or one of the special values. -/
inductive Binary where
  | finite (negative : Bool) (mantissa : Nat) (exponent : Int)
  | infinite (negative : Bool)
  | notANumber
  deriving DecidableEq, Repr

/-- The value that the bits of a double stand for. -/
def Binary.ofFloat (x : Float) : Binary :=
  let bits := x.toBits.toNat
  let negative := bits / Nat.pow 2 63 == 1
  let biased : Nat := bits / Nat.pow 2 52 % Nat.pow 2 11
  let fraction : Nat := bits % Nat.pow 2 52
  if biased == 2047 then
    if fraction == 0 then .infinite negative else .notANumber
  else if biased == 0 then .finite negative fraction (-1074)
  else .finite negative (Nat.pow 2 52 + fraction) ((biased : Int) - 1075)

/-- The positive part and the negative part of an exponent, as factors `2 ^ up` over `2 ^ down`. -/
def scale (e : Int) : Nat × Nat := (e.toNat, (-e).toNat)

/-- The nearest integer to `n / d`; a half goes to the even neighbour. -/
def roundDiv (n d : Nat) : Nat :=
  let q := n / d
  let r := n % d
  if 2 * r < d then q else if d < 2 * r then q + 1 else q + q % 2

/-- Why a number has no integer part. -/
inductive NotFinite where
  | notANumber
  | infinite
  deriving DecidableEq, Repr

def NotFinite.message : NotFinite → String
  | .notANumber => "cannot convert float NaN to integer"
  | .infinite => "cannot convert float infinity to integer"

/-- The numerator over `2 ^ (scale e).2` of a finite value. -/
def numerator (negative : Bool) (m : Nat) (e : Int) : Int :=
  if negative then -(m * Nat.pow 2 (scale e).1 : Nat) else (m * Nat.pow 2 (scale e).1 : Nat)

/-- The greatest integer that is not above the value. -/
def Binary.floor : Binary → Except NotFinite Int
  | .finite negative m e => .ok ((numerator negative m e).fdiv (Nat.pow 2 (scale e).2 : Nat))
  | .infinite _ => .error .infinite
  | .notANumber => .error .notANumber

/-- How the value compares to an integer; what is not a number does not compare. -/
def Binary.compareInt (x : Binary) (n : Int) : Option Ordering :=
  match x with
  | .finite negative m e => some (compare (numerator negative m e) (n * (Nat.pow 2 (scale e).2 : Nat)))
  | .infinite negative => some (if negative then .lt else .gt)
  | .notANumber => none

/-- Numbers with a place among the integers. -/
class Placed (α : Type) where
  floor : α → Except NotFinite Int
  compareInt : α → Int → Option Ordering

instance : Placed Float where
  floor x := (Binary.ofFloat x).floor
  compareInt x := (Binary.ofFloat x).compareInt

instance : Placed Rat where
  floor x := .ok x.floor
  compareInt x n := some (if x < n then .lt else if x = n then .eq else .gt)

def Placed.above {α : Type} [Placed α] (x : α) (n : Int) : Bool := Placed.compareInt x n == some .gt

end CommentGrade.Number
