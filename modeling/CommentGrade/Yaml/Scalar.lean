import CommentGrade.Number.Numeral
import CommentGrade.Text.Case
import CommentGrade.Value.Basic
import CommentGrade.Yaml.ReadError

/-!
# Scalars of YAML

What a plain scalar stands for: null, a truth value, an integer, a float, a moment, or the text itself. Its form
decides, by the rules of version 1.1 with a point required in every float and a sign in every exponent.
-/
namespace CommentGrade.Yaml

open Number

inductive ScalarKind where
  | null
  | bool
  | int
  | float
  | timestamp
  | merge
  | value
  | str
  | binary
  deriving DecidableEq, Repr

def isDigitOrLow (c : Char) : Bool := c.isDigit || c == '_'

def colonParts (cs : List Char) : List (List Char) := cs.splitOnP (· == ':')

/-- A number below 60, of one or two digits. -/
def isSixtieth (cs : List Char) : Bool :=
  match cs with
  | [a] => a.isDigit
  | [a, b] => '0' ≤ a && a ≤ '5' && b.isDigit
  | _ => false

/-- Whether a text is an integer: binary, octal, decimal, hexadecimal, or of parts with base 60. -/
def isInt (cs : List Char) : Bool :=
  let body := (splitSign cs).2
  match body with
  | '0' :: 'b' :: ds => !ds.isEmpty && ds.all fun c => c == '0' || c == '1' || c == '_'
  | '0' :: 'x' :: ds => !ds.isEmpty && ds.all fun c => isDigitOf 16 c || c == '_'
  | '0' :: ds => ds.all fun c => isDigitOf 8 c || c == '_'
  | c :: ds =>
    if c.isDigit then
      match colonParts ds with
      | [only] => only.all isDigitOrLow
      | whole :: parts => whole.all isDigitOrLow && parts.all isSixtieth
      | [] => false
    else false
  | [] => false

/-- Whether a text is an exponent with its sign, or empty. -/
def isExponent (cs : List Char) : Bool :=
  match cs with
  | [] => true
  | e :: sign :: d :: ds => (e == 'e' || e == 'E') && (sign == '+' || sign == '-') && d.isDigit && ds.all Char.isDigit
  | _ => false

/-- Whether a text is a float: with a point, with parts of base 60 before it, or infinite, or no number. -/
def isFloat (cs : List Char) : Bool :=
  let body := (splitSign cs).2
  let special := [['i', 'n', 'f'], ['I', 'n', 'f'], ['I', 'N', 'F']]
  let noNumber := [['n', 'a', 'n'], ['N', 'a', 'N'], ['N', 'A', 'N']]
  match cs, body with
  | '.' :: ds, _ =>
    special.contains ds || noNumber.contains ds ||
      (match ds with
        | d :: rest => d.isDigit && isExponent (rest.dropWhile isDigitOrLow)
        | [] => false)
  | _, '.' :: ds => special.contains ds
  | _, d :: rest =>
    d.isDigit &&
      match rest.dropWhile isDigitOrLow with
      | '.' :: places => isExponent (places.dropWhile isDigitOrLow)
      | ':' :: parts =>
        let whole := parts.takeWhile (· != '.')
        match parts.dropWhile (· != '.') with
        | '.' :: places => (colonParts whole).all isSixtieth && places.all isDigitOrLow
        | _ => false
      | _ => false
  | _, [] => false

/-- The digits at the start of a text: at least `least` and at most `most`. -/
def someDigits? (least most : Nat) (cs : List Char) : Option (Nat × List Char) :=
  let ds := (cs.take most).takeWhile Char.isDigit
  if least ≤ ds.length then some (valueOf 10 ds, cs.drop ds.length) else none

/-- What follows a character, if the text starts with it. -/
def dropChar? (c : Char) : List Char → Option (List Char)
  | x :: cs => if x = c then some cs else none
  | [] => none

structure Timestamp where
  year : Nat
  month : Nat
  day : Nat
  time : Option (ClockTime × Option Int)

/-- The microseconds of a fraction that may be missing. -/
def timestampFraction (cs : List Char) : Nat × List Char :=
  match cs with
  | '.' :: rest =>
    let ds := rest.takeWhile Char.isDigit
    let six := ds.take 6
    (if six.isEmpty then 0 else valueOf 10 six * Nat.pow 10 (6 - six.length), rest.dropWhile Char.isDigit)
  | _ => (0, cs)

/-- An offset from universal time at the end of a text: nothing, if the text is empty. -/
def timestampOffset? (cs : List Char) : Option (Option Int) :=
  match cs.dropWhile fun c => c == ' ' || c == '\t' with
  | [] => if cs.isEmpty then some none else none
  | ['Z'] => some (some 0)
  | c :: rest =>
    if c == '+' || c == '-' then do
      let (hours, rest) ← someDigits? 1 2 rest
      let (minutes, rest) ← match rest with
        | ':' :: rest => someDigits? 2 2 rest
        | rest => some (0, rest)
      if rest.isEmpty then some (some (signed (c == '-') (hours * 3600 + minutes * 60))) else none
    else none

/-- Reads a timestamp. A date alone may be required to have two digits for month and day. -/
def timestamp? (strict : Bool) (cs : List Char) : Option Timestamp := do
  let (year, cs) ← someDigits? 4 4 cs
  let cs ← dropChar? '-' cs
  let monthText := cs
  let (month, cs) ← someDigits? 1 2 cs
  let monthWidth := monthText.length - cs.length
  let cs ← dropChar? '-' cs
  let dayText := cs
  let (day, cs) ← someDigits? 1 2 cs
  let dayWidth := dayText.length - cs.length
  match cs with
  | [] => if strict && (monthWidth < 2 || dayWidth < 2) then none else some ⟨year, month, day, none⟩
  | c :: rest =>
    let cs ←
      if c == 'T' || c == 't' then some rest
      else if c == ' ' || c == '\t' then some (cs.dropWhile fun x => x == ' ' || x == '\t')
      else none
    let (hour, cs) ← someDigits? 1 2 cs
    let cs ← dropChar? ':' cs
    let (minute, cs) ← someDigits? 2 2 cs
    let cs ← dropChar? ':' cs
    let (second, cs) ← someDigits? 2 2 cs
    let (micro, cs) := timestampFraction cs
    let offset ← timestampOffset? cs
    some ⟨year, month, day, some (⟨hour, minute, second, micro⟩, offset)⟩

/-- The words for truth values. -/
def truthWords : List (String × Bool) :=
  [("yes", true), ("no", false), ("true", true), ("false", false), ("on", true), ("off", false)]

/-- A word in small letters, with one capital in front, and in capitals. -/
def casings (w : String) : List (List Char) :=
  let cs := w.toList
  [cs, (match cs with
    | [] => []
    | c :: rest => c.toUpper :: rest), cs.map Char.toUpper]

def kindOf (cs : List Char) : ScalarKind :=
  if truthWords.any fun w => (casings w.1).contains cs then .bool
  else if isFloat cs then .float
  else if isInt cs then .int
  else if cs = ['<', '<'] then .merge
  else if cs = [] ∨ cs = ['~'] ∨ (casings "null").contains cs then .null
  else if (timestamp? true cs).isSome then .timestamp
  else if cs = ['='] then .value
  else .str

/-! ## Values -/

def withoutLows (cs : List Char) : List Char := cs.filter (· != '_')

/-- An integer in a base. Only decimal numerals can be too long. -/
def intIn (base : Nat) (cs : List Char) : Except ReadError Int :=
  match wholeDigits? base cs with
  | none => .error (.notInteger base (Text.quoted (String.ofList cs)))
  | some (negative, ds) =>
    if base = 10 ∧ maxDigits < ds.length then .error (.format (.tooLong ⟨ds.length⟩))
    else .ok (signed negative (ofDigits base ds))

/-- Parts in base 60, the last of which counts once. -/
def sexagesimal (parts : List Int) : Int := parts.foldl (fun n d => n * 60 + d) 0

/-- The integer that a text without a sign stands for. -/
def unsignedIntOf (body : List Char) : Except ReadError Int :=
  match body with
  | [] => .error .emptyNumeral
  | ['0'] => .ok 0
  | '0' :: 'b' :: ds => intIn 2 ds
  | '0' :: 'x' :: ds => intIn 16 ds
  | '0' :: _ => intIn 8 body
  | _ =>
    match colonParts body with
    | [_] => intIn 10 body
    | parts => (parts.mapM (intIn 10)).map sexagesimal

def intOf (cs : List Char) : Except ReadError Int :=
  let (negative, body) := splitSign (withoutLows cs)
  (unsignedIntOf body).map fun n => if negative then -n else n

/-- The digits and the power of ten of a decimal without a sign. -/
def decimalOf? (cs : List Char) : Option (Nat × Int) :=
  let whole := cs.takeWhile Char.isDigit
  let rest := cs.dropWhile Char.isDigit
  let (places, rest) := match rest with
    | '.' :: rest => (rest.takeWhile Char.isDigit, rest.dropWhile Char.isDigit)
    | rest => ([], rest)
  let digits := whole ++ places
  if digits.isEmpty then none
  else
    match rest with
    | [] => some (valueOf 10 digits, -places.length)
    | e :: rest =>
      let (negative, power) := splitSign rest
      if (e == 'e' || e == 'E') && !power.isEmpty && power.all Char.isDigit then
        some (valueOf 10 digits, signed negative (valueOf 10 power) - places.length)
      else none

/-- The digit of the first script that a digit of any script corresponds to. -/
def plainDigit (c : Char) : Char :=
  match Text.digitValue? c with
  | some d => Char.ofNat (0x30 + d)
  | none => c

/-- The float of a decimal, or of a name for what is not finite. -/
def floatIn (cs : List Char) : Except ReadError Float :=
  let (negative, body) := splitSign ((Text.stripOf isNumeralBlank cs).map plainDigit)
  match decimalOf? body with
  | some (digits, exponent) => .ok (signedFloat negative (nearestFloat digits exponent))
  | none =>
    if body = "inf".toList ∨ body = "infinity".toList then .ok (signedFloat negative (1.0 / 0.0))
    else if body = "nan".toList then .ok (0.0 / 0.0)
    else .error (.notFloat (Text.quoted (String.ofList cs)))

/-- The most parts in base 60 that a float can have. -/
def maxParts : Nat := 174

/-- The sum of parts in base 60, from the last one to the first. -/
def sexagesimalFloat (parts : List Float) : Float :=
  (parts.reverse.zipIdx.map fun p => p.1 * nearestFloat (Nat.pow 60 p.2) 0).foldl (· + ·) 0.0

def floatOf (cs : List Char) : Except ReadError Float :=
  let lower := Text.lower (withoutLows cs)
  let (negative, body) := splitSign lower
  if lower = [] then .error .emptyNumeral
  else if body = ".inf".toList then .ok (signedFloat negative (1.0 / 0.0))
  else if body = ".nan".toList then .ok (0.0 / 0.0)
  else
    match colonParts body with
    | [_] => (floatIn body).map (signedFloat negative)
    | parts => do
      let xs ← parts.mapM floatIn
      if maxParts < xs.length then .error .weightTooLarge
      else return signedFloat negative (sexagesimalFloat xs)

def momentOf (t : Timestamp) : Except ReadError Moment :=
  let result : Except CalendarError Moment :=
    match t.time with
    | none => (Date.make t.year t.month t.day).map .day
    | some (clock, offset) => do
      match offset with
      | some s => if s.natAbs < 86400 then pure () else throw (.offset s)
      | none => pure ()
      let date ← Date.make t.year t.month t.day
      let time ← ClockTime.make clock.hour clock.minute clock.second clock.micro
      return .instant date time offset
  result.mapError .calendar

end CommentGrade.Yaml
