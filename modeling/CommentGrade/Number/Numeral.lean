import CommentGrade.Text.Blank
import CommentGrade.Text.Digit

/-!
# Numerals

Reading whole numbers and decimal fractions. A decimal numeral may not have more than 4300 digits, so that the
time to read it stays bounded; the other bases have no such bound.
-/
namespace CommentGrade.Number

/-- The longest decimal numeral that is read. -/
def maxDigits : Nat := 4300

/-- A decimal numeral that is too long, with the number of its digits. -/
structure TooLong where
  digits : Nat
  deriving DecidableEq, Repr

def TooLong.message (e : TooLong) : String :=
  "Exceeds the limit (4300 digits) for integer string conversion: value has " ++ toString e.digits ++
    " digits; use sys.set_int_max_str_digits() to increase the limit"

/-- The value of a digit in any base up to 36. -/
def digitOf? (c : Char) : Option Nat :=
  if c.isDigit then some (c.toNat - 0x30)
  else if 'a' ≤ c ∧ c ≤ 'z' then some (c.toNat - 0x61 + 10)
  else if 'A' ≤ c ∧ c ≤ 'Z' then some (c.toNat - 0x41 + 10)
  else none

/-- Whether a character is a digit of a base. -/
def isDigitOf (base : Nat) (c : Char) : Bool :=
  match digitOf? c with
  | some d => d < base
  | none => false

/-- The value of a row of digits; characters that are no digits are skipped. -/
def valueOf (base : Nat) (cs : List Char) : Nat :=
  cs.foldl (fun n c => match digitOf? c with
    | some d => n * base + d
    | none => n) 0

/-- The value of a row of decimal digits, unless there are too many. -/
def decimalValue (cs : List Char) : Except TooLong Nat :=
  if maxDigits < cs.length then .error ⟨cs.length⟩ else .ok (valueOf 10 cs)

/-- The double nearest to `digits * 10 ^ exponent`. Decimals far outside the range of doubles are not expanded. -/
def nearestFloat (digits : Nat) (exponent : Int) : Float :=
  let size : Int := (toString digits).length + exponent
  if digits = 0 ∨ size < -400 then 0.0
  else if 400 < size then Float.ofScientific 1 false 400
  else if exponent < 0 then Float.ofScientific digits true exponent.natAbs
  else Float.ofScientific digits false exponent.natAbs

def signed (negative : Bool) (n : Nat) : Int := if negative then -(n : Int) else n

def signedFloat (negative : Bool) (x : Float) : Float := if negative then -x else x

/-- The value of a digit in a base: of a decimal digit of any script, or of a letter. -/
def scriptDigit? (base : Nat) (c : Char) : Option Nat :=
  ((Text.digitValue? c).or (digitOf? c)).filter (· < base)

/-- Digits in groups parted by single underscores, as values. -/
def groupedDigits? (base : Nat) : List Char → Option (List Nat)
  | [] => none
  | [c] => (scriptDigit? base c).map ([·])
  | c :: '_' :: cs => do
    let d ← scriptDigit? base c
    let ds ← groupedDigits? base cs
    return d :: ds
  | c :: cs => do
    let d ← scriptDigit? base c
    let ds ← groupedDigits? base cs
    return d :: ds

/-- White space around a numeral; the information separators do not count as such here. -/
def isNumeralBlank (c : Char) : Bool := Text.isBlank c && !(0x1c ≤ c.toNat && c.toNat ≤ 0x1f)

/-- A text without a sign in front, and whether the sign was a minus. -/
def splitSign : List Char → Bool × List Char
  | '-' :: cs => (true, cs)
  | '+' :: cs => (false, cs)
  | cs => (false, cs)

/-- The letter that marks a base after a zero. -/
def baseMark? : Nat → Option Char
  | 2 => some 'b'
  | 8 => some 'o'
  | 16 => some 'x'
  | _ => none

/-- The digits after the mark of a base, which may be missing; an underscore may follow it. -/
def withoutBaseMark (base : Nat) (cs : List Char) : List Char :=
  match cs with
  | '0' :: mark :: ds =>
    if baseMark? base = some mark.toLower then
      match ds with
      | '_' :: ds => ds
      | ds => ds
    else cs
  | _ => cs

/-- A whole number as a person writes it: white space around it, a sign, perhaps the mark of its base, and single
underscores between the digits. It is given as whether it is negative and its digits. -/
def wholeDigits? (base : Nat) (cs : List Char) : Option (Bool × List Nat) :=
  let (negative, body) := splitSign (Text.stripOf isNumeralBlank cs)
  (groupedDigits? base (withoutBaseMark base body)).map fun ds => (negative, ds)

/-- The number with the given digits in a base. -/
def ofDigits (base : Nat) (ds : List Nat) : Nat := ds.foldl (fun n d => n * base + d) 0

/-- A decimal integer as a person writes it on a command line. -/
def readInt? (s : String) : Option Int :=
  match wholeDigits? 10 s.toList with
  | none => none
  | some (negative, ds) => if maxDigits < ds.length then none else some (signed negative (ofDigits 10 ds))

end CommentGrade.Number
