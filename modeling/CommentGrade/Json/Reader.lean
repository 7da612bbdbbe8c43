import CommentGrade.Value.Basic
import CommentGrade.Value.ReadError

/-!
# Reading JSON

The grammar of JSON, with the three names `NaN`, `Infinity` and `-Infinity` as further numbers. A numeral
without fraction and exponent is an integer of any size. Of entries with the same key the last one counts, at the
place of the first.
-/
namespace CommentGrade.Json

open Number

def isSpace (c : Char) : Bool := c == ' ' || c == '\t' || c == '\n' || c == '\r'

def skipSpaces (cs : List Char) : List Char := cs.dropWhile isSpace

/-- The code units of a string up to the closing quote, and what follows it. -/
def stringUnits : List Char → Option (List Nat × List Char)
  | [] => none
  | '"' :: cs => some ([], cs)
  | '\\' :: 'u' :: a :: b :: c :: d :: cs =>
    if [a, b, c, d].all (isDigitOf 16) then
      (stringUnits cs).map fun r => (valueOf 16 [a, b, c, d] :: r.1, r.2)
    else none
  | '\\' :: c :: cs =>
    let unit? : Option Nat := match c with
      | '"' => some 0x22
      | '\\' => some 0x5c
      | '/' => some 0x2f
      | 'b' => some 8
      | 'f' => some 12
      | 'n' => some 10
      | 'r' => some 13
      | 't' => some 9
      | _ => none
    match unit? with
    | some u => (stringUnits cs).map fun r => (u :: r.1, r.2)
    | none => none
  | c :: cs =>
    if c.toNat < 0x20 ∨ c = '\\' then none
    else (stringUnits cs).map fun r => (c.toNat :: r.1, r.2)

/-- Joins pairs of surrogate units to characters. -/
def joinUnits : List Nat → List Char
  | [] => []
  | [u] => [Char.ofNat u]
  | u :: v :: us =>
    if 0xd800 ≤ u ∧ u < 0xdc00 ∧ 0xdc00 ≤ v ∧ v < 0xe000 then
      Char.ofNat (0x10000 + (u - 0xd800) * 0x400 + (v - 0xdc00)) :: joinUnits us
    else Char.ofNat u :: joinUnits (v :: us)

/-- A string whose opening quote has been read. -/
def readString (cs : List Char) : Except FormatError (String × List Char) :=
  match stringUnits cs with
  | some (us, rest) => .ok (String.ofList (joinUnits us), rest)
  | none => .error .malformed

/-- The digits before a fraction. A zero in front stands alone. -/
def wholePart (cs : List Char) : List Char × List Char :=
  match cs with
  | '0' :: rest => (['0'], rest)
  | _ => (cs.takeWhile Char.isDigit, cs.dropWhile Char.isDigit)

/-- A fraction: a point and digits, or nothing. -/
def fraction (cs : List Char) : List Char × List Char :=
  match cs with
  | '.' :: c :: rest =>
    if c.isDigit then ((c :: rest).takeWhile Char.isDigit, (c :: rest).dropWhile Char.isDigit) else ([], cs)
  | _ => ([], cs)

/-- An exponent: its sign and digits, or nothing. -/
def exponent? (cs : List Char) : Option Int × List Char :=
  match cs with
  | e :: rest =>
    if e == 'e' || e == 'E' then
      let (negative, ds) := match rest with
        | '-' :: ds => (true, ds)
        | '+' :: ds => (false, ds)
        | ds => (false, ds)
      let digits := ds.takeWhile Char.isDigit
      if digits.isEmpty then (none, cs) else (some (signed negative (valueOf 10 digits)), ds.dropWhile Char.isDigit)
    else (none, cs)
  | [] => (none, cs)

/-- A numeral without its sign. -/
def readNumber (negative : Bool) (cs : List Char) : Except FormatError (Value × List Char) :=
  let (whole, rest) := wholePart cs
  if whole.isEmpty then .error .malformed
  else
    let (places, rest) := fraction rest
    let (power, rest) := exponent? rest
    if places.isEmpty && power.isNone then
      match decimalValue whole with
      | .ok n => .ok (.int (signed negative n), rest)
      | .error e => .error (.tooLong e)
    else
      let x := nearestFloat (valueOf 10 (whole ++ places)) (power.getD 0 - places.length)
      .ok (.float (signedFloat negative x), rest)

/-- What follows a word, if the text starts with it. -/
def dropWord? : List Char → List Char → Option (List Char)
  | [], cs => some cs
  | w :: ws, c :: cs => if w = c then dropWord? ws cs else none
  | _ :: _, [] => none

/-- The names of fixed values. -/
def readName (cs : List Char) : Except FormatError (Value × List Char) :=
  let names : List (String × Value) :=
    [("null", .null), ("true", .bool true), ("false", .bool false), ("NaN", .float (0.0 / 0.0)),
      ("Infinity", .float (1.0 / 0.0)), ("-Infinity", .float (-1.0 / 0.0))]
  match names.findSome? fun e => (dropWord? e.1.toList cs).map fun rest => (e.2, rest) with
  | some r => .ok r
  | none => .error .malformed

mutual

/-- A value; the number bounds the depth of nesting. -/
def readValue : Nat → List Char → Except FormatError (Value × List Char)
  | 0, _ => .error .malformed
  | n + 1, cs =>
    match cs with
    | '"' :: rest => do
      let (s, rest) ← readString rest
      return (.str s, rest)
    | '[' :: rest =>
      match skipSpaces rest with
      | ']' :: rest => .ok (.list [], rest)
      | rest => do
        let (vs, rest) ← readItems n rest
        return (.list vs, rest)
    | '\x7b' :: rest =>
      match skipSpaces rest with
      | '\x7d' :: rest => .ok (.map [], rest)
      | rest => readEntries n [] rest
    | '-' :: rest =>
      match rest with
      | 'I' :: _ => readName cs
      | _ => readNumber true rest
    | c :: _ => if c.isDigit then readNumber false cs else readName cs
    | [] => .error .malformed

/-- The items of a list up to its closing bracket. -/
def readItems : Nat → List Char → Except FormatError (List Value × List Char)
  | 0, _ => .error .malformed
  | n + 1, cs => do
    let (v, rest) ← readValue n cs
    match skipSpaces rest with
    | ',' :: rest => do
      let (vs, rest) ← readItems n (skipSpaces rest)
      return (v :: vs, rest)
    | ']' :: rest => return ([v], rest)
    | _ => .error .malformed

/-- The entries of a mapping up to its closing brace, added to those read before. -/
def readEntries : Nat → List (Value × Value) → List Char → Except FormatError (Value × List Char)
  | 0, _, _ => .error .malformed
  | n + 1, es, cs =>
    match cs with
    | '"' :: rest => do
      let (key, rest) ← readString rest
      match skipSpaces rest with
      | ':' :: rest => do
        let (v, rest) ← readValue n (skipSpaces rest)
        let es := Value.put key v es
        match skipSpaces rest with
        | ',' :: rest => readEntries n es (skipSpaces rest)
        | '\x7d' :: rest => return (.map es, rest)
        | _ => .error .malformed
      | _ => .error .malformed
    | _ => .error .malformed

end

/-- A whole document: one value with white space around it. -/
def read (s : String) : Except FormatError Value := do
  let cs := s.toList
  let (v, rest) ← readValue (cs.length + 1) (skipSpaces cs)
  if (skipSpaces rest).isEmpty then return v else .error .malformed

end CommentGrade.Json
