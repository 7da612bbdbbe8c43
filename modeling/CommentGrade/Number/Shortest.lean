import CommentGrade.Number.Binary

/-!
# The shortest decimal that reads back

Of the decimals that round to a given double, `shortest` gives one with the fewest digits, and of those the
nearest one. The grid of multiples of `10 ^ k` is refined step by step; on each grid only the two neighbours
of the value can be nearest, so these two are tested.
-/
namespace CommentGrade.Number

/-- The reals that round to `mantissa * 2 ^ exponent`, in units of `2 ^ (exponent - 2)`: the value, the two
ends, and whether the ends belong to it. Below a power of two the neighbours are twice as dense. -/
structure Rounding where
  value : Nat
  low : Nat
  high : Nat
  closed : Bool
  exponent : Int

def Rounding.of (m : Nat) (e : Int) : Rounding where
  value := 4 * m
  low := if m == Nat.pow 2 52 && e != -1074 then 4 * m - 1 else 4 * m - 2
  high := 4 * m + 2
  closed := m % 2 == 0
  exponent := e - 2

/-- A decimal `digits * 10 ^ exponent`. -/
structure Decimal where
  digits : Nat
  exponent : Int
  deriving DecidableEq, Repr

/-- Whether `c * 10 ^ k` rounds to the value. -/
def Rounding.includes (r : Rounding) (k : Int) (c : Nat) : Bool :=
  let (up, down) := scale r.exponent
  let (tens, tenths) := scale k
  let unit := Nat.pow 2 up * Nat.pow 10 tenths
  let step := Nat.pow 10 tens * Nat.pow 2 down
  if r.closed then r.low * unit ≤ c * step && c * step ≤ r.high * unit
  else r.low * unit < c * step && c * step < r.high * unit

/-- The nearest multiple of `10 ^ k` among those that round to the value, if there is one. -/
def Rounding.onGrid? (r : Rounding) (k : Int) : Option Decimal :=
  let (up, down) := scale r.exponent
  let (tens, tenths) := scale k
  let unit := Nat.pow 2 up * Nat.pow 10 tenths
  let step := Nat.pow 10 tens * Nat.pow 2 down
  let below := r.value * unit / step
  let nearest := roundDiv (r.value * unit) step
  let other := if nearest == below then below + 1 else below
  if r.includes k nearest then some ⟨nearest, k⟩ else if r.includes k other then some ⟨other, k⟩ else none

/-- The first grid with a point that rounds to the value, from `10 ^ k` downwards. -/
def Rounding.refine (r : Rounding) : Nat → Int → Decimal
  | 0, _ => ⟨0, 0⟩
  | n + 1, k => (r.onGrid? k).getD (r.refine n (k - 1))

/-- The shortest decimal that rounds to `m * 2 ^ e`, for `m` not zero. -/
def shortest (m : Nat) (e : Int) : Decimal :=
  (Rounding.of m e).refine 24 (((Nat.log2 m + e) * 1233).fdiv 4096 + 2)

/-- How a decimal is laid out: it is positional from `10 ^ positionalFrom` up to, not including,
`10 ^ positionalBelow`, and has an exponent of at least `exponentWidth` digits elsewhere. -/
structure Layout where
  positionalFrom : Int
  positionalBelow : Int
  exponentWidth : Nat

/-- Floats are positional from 0.0001 up to, not including, ten quadrillion. -/
def floatLayout : Layout := ⟨-4, 16, 2⟩

/-- Pads a numeral with zeros on the left. -/
def zeroPad (width : Nat) (s : String) : String :=
  String.ofList (List.replicate (width - s.length) '0') ++ s

def zeros (n : Nat) : String := String.ofList (List.replicate n '0')

/-- The text of a positive decimal. A positional text always has a point with a digit on both sides. -/
def Layout.render (l : Layout) (d : Decimal) : String :=
  let ds := toString d.digits
  let point : Int := ds.length + d.exponent
  if l.positionalFrom < point ∧ point ≤ l.positionalBelow then
    if point ≤ 0 then "0." ++ zeros (-point).toNat ++ ds
    else if (ds.length : Int) ≤ point then ds ++ zeros (point - ds.length).toNat ++ ".0"
    else (ds.take point.toNat).toString ++ "." ++ (ds.drop point.toNat).toString
  else
    let e := point - 1
    let mantissa := if ds.length == 1 then ds else (ds.take 1).toString ++ "." ++ (ds.drop 1).toString
    let sign := if e < 0 then "-" else "+"
    mantissa ++ "e" ++ sign ++ zeroPad l.exponentWidth (toString e.natAbs)

def floatText (x : Float) : String :=
  match Binary.ofFloat x with
  | .notANumber => "nan"
  | .infinite negative => if negative then "-inf" else "inf"
  | .finite negative m e =>
    (if negative then "-" else "") ++ if m == 0 then "0.0" else floatLayout.render (shortest m e)

end CommentGrade.Number
