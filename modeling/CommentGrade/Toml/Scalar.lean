import CommentGrade.Value.Basic
import CommentGrade.Value.ReadError

/-!
# Scalars of TOML

Strings in their four forms, numbers, dates and times. Every function takes the characters from the scalar on
and gives what is left after it.
-/
namespace CommentGrade.Toml

open Number

def isSpace (c : Char) : Bool := c == ' ' || c == '\t'

def skipSpaces (cs : List Char) : List Char := cs.dropWhile isSpace

/-- A control character that may not stand in a string or a comment. -/
def isForbidden (c : Char) : Bool := (c.toNat < 0x20 && c != '\t') || c.toNat == 0x7f

/-- What follows a word, if the text starts with it. -/
def dropWord? : List Char → List Char → Option (List Char)
  | [], cs => some cs
  | w :: ws, c :: cs => if w = c then dropWord? ws cs else none
  | _ :: _, [] => none

/-- The code point that a row of hexadecimal digits names, unless it is a surrogate. -/
def codePoint? (digits : List Char) : Option Char :=
  let n := valueOf 16 digits
  if digits.all (isDigitOf 16) ∧ (n < 0xd800 ∨ (0xe000 ≤ n ∧ n < 0x110000)) then some (Char.ofNat n) else none

/-- The character of an escape with one letter. -/
def shortEscape? : Char → Option Char
  | 'b' => some '\x08'
  | 't' => some '\t'
  | 'n' => some '\n'
  | 'f' => some '\x0c'
  | 'r' => some '\r'
  | '"' => some '"'
  | '\\' => some '\\'
  | _ => none

/-- Whether an end of line, perhaps after blanks, comes next. -/
def endsLine (cs : List Char) : Bool :=
  match skipSpaces cs with
  | [] => true
  | c :: _ => c == '\n'

/-- The characters of a string in double quotes up to its end: one quote, or three if it may have several
lines. The number bounds the characters read. -/
def basicChars (multiline : Bool) : Nat → List Char → Except FormatError (List Char × List Char)
  | 0, _ => .error .malformed
  | n + 1, cs =>
    let more (c : Char) (rest : List Char) : Except FormatError (List Char × List Char) := do
      let (ds, rest) ← basicChars multiline n rest
      return (c :: ds, rest)
    match cs with
    | [] => .error .malformed
    | '"' :: rest =>
      if multiline then
        match rest with
        | '"' :: '"' :: rest => .ok ([], rest)
        | _ => more '"' rest
      else .ok ([], rest)
    | '\\' :: 'u' :: rest =>
      match codePoint? (rest.take 4) with
      | some c => if (rest.take 4).length = 4 then more c (rest.drop 4) else .error .malformed
      | none => .error .malformed
    | '\\' :: 'U' :: rest =>
      match codePoint? (rest.take 8) with
      | some c => if (rest.take 8).length = 8 then more c (rest.drop 8) else .error .malformed
      | none => .error .malformed
    | '\\' :: c :: rest =>
      if multiline && (c == '\n' || (isSpace c && endsLine rest)) then
        basicChars multiline n ((c :: rest).dropWhile fun d => isSpace d || d == '\n')
      else
        match shortEscape? c with
        | some d => more d rest
        | none => .error .malformed
    | c :: rest =>
      if isForbidden c && !(multiline && c == '\n') then .error .malformed else more c rest

/-- The characters of a string in single quotes up to its end. -/
def literalChars (multiline : Bool) : List Char → Except FormatError (List Char × List Char)
  | [] => .error .malformed
  | c :: rest =>
    let closing? : Option (List Char) :=
      if c = '\'' then (if multiline then dropWord? ['\'', '\''] rest else some rest) else none
    match closing? with
    | some rest => .ok ([], rest)
    | none =>
      if isForbidden c && !(multiline && c == '\n') then .error .malformed
      else do
        let (ds, rest) ← literalChars multiline rest
        return (c :: ds, rest)

/-- Up to two more quotes right after the end of a string of several lines belong to it. -/
def withQuotes (quote : Char) (cs rest : List Char) : List Char × List Char :=
  match rest with
  | a :: b :: rest' =>
    if a = quote ∧ b = quote then (cs ++ [a, b], rest')
    else if a = quote then (cs ++ [a], b :: rest')
    else (cs, rest)
  | [a] => if a = quote then (cs ++ [a], []) else (cs, rest)
  | [] => (cs, rest)

/-- A line feed right after the opening quotes of a string of several lines is dropped. -/
def dropFirstBreak : List Char → List Char
  | '\n' :: cs => cs
  | cs => cs

def lineString : List Char → Except FormatError (String × List Char)
  | '"' :: cs => do
    let (s, rest) ← basicChars false (cs.length + 1) cs
    return (String.ofList s, rest)
  | '\'' :: cs => do
    let (s, rest) ← literalChars false cs
    return (String.ofList s, rest)
  | _ => .error .malformed

def string : List Char → Except FormatError (String × List Char)
  | '"' :: '"' :: '"' :: cs => do
    let cs := dropFirstBreak cs
    let (s, rest) ← basicChars true (cs.length + 1) cs
    let (s, rest) := withQuotes '"' s rest
    return (String.ofList s, rest)
  | '\'' :: '\'' :: '\'' :: cs => do
    let (s, rest) ← literalChars true (dropFirstBreak cs)
    let (s, rest) := withQuotes '\'' s rest
    return (String.ofList s, rest)
  | cs => lineString cs

/-- The value of a given number of digits at the start of a text, in a range. -/
def fixed? (width low high : Nat) (cs : List Char) : Option (Nat × List Char) :=
  let ds := cs.take width
  let n := valueOf 10 ds
  if ds.length = width ∧ ds.all Char.isDigit ∧ low ≤ n ∧ n ≤ high then some (n, cs.drop width) else none

/-- What follows a character, if the text starts with it. -/
def after? (c : Char) (cs : List Char) : Option (List Char) := dropWord? [c] cs

/-- The microseconds of a fraction; digits after the sixth do not count. -/
def fractionOf (cs : List Char) : Nat × List Char :=
  match cs with
  | '.' :: rest =>
    let ds := rest.takeWhile Char.isDigit
    if ds.isEmpty then (0, cs)
    else
      let six := ds.take 6
      (valueOf 10 six * Nat.pow 10 (6 - six.length), rest.dropWhile Char.isDigit)
  | _ => (0, cs)

def time? (cs : List Char) : Option (ClockTime × List Char) := do
  let (hour, cs) ← fixed? 2 0 23 cs
  let cs ← after? ':' cs
  let (minute, cs) ← fixed? 2 0 59 cs
  let cs ← after? ':' cs
  let (second, cs) ← fixed? 2 0 59 cs
  let (micro, cs) := fractionOf cs
  return (⟨hour, minute, second, micro⟩, cs)

/-- An offset from universal time in seconds. -/
def offset? (cs : List Char) : Option (Int × List Char) :=
  match cs with
  | c :: rest =>
    if c == 'Z' || c == 'z' then some (0, rest)
    else if c == '+' || c == '-' then do
      let (hours, rest) ← fixed? 2 0 23 rest
      let rest ← after? ':' rest
      let (minutes, rest) ← fixed? 2 0 59 rest
      return (signed (c == '-') (hours * 3600 + minutes * 60), rest)
    else none
  | [] => none

/-- The year, month and day of a date as written, whether or not the month has such a day. -/
def dateParts? (cs : List Char) : Option ((Nat × Nat × Nat) × List Char) := do
  let (year, cs) ← fixed? 4 0 9999 cs
  let cs ← after? '-' cs
  let (month, cs) ← fixed? 2 1 12 cs
  let cs ← after? '-' cs
  let (day, cs) ← fixed? 2 1 31 cs
  return ((year, month, day), cs)

/-- A date with or without a time, or a time; nothing if the text starts with none. -/
def moment? (cs : List Char) : Option (Except FormatError (Moment × List Char)) :=
  match dateParts? cs with
  | some ((year, month, day), rest) =>
    some <| match Date.make year month day with
      | .error _ => .error .malformed
      | .ok date =>
        let time := match rest with
          | c :: rest => if c == 'T' || c == 't' || c == ' ' then time? rest else none
          | [] => none
        match time with
        | none => .ok (.day date, rest)
        | some (t, rest) =>
          match offset? rest with
          | some (seconds, rest) => .ok (.instant date t (some seconds), rest)
          | none => .ok (.instant date t none, rest)
  | none => (time? cs).map fun r => .ok (.clock r.1, r.2)

/-- Digits with single underscores between them; the digits alone, and the characters after them. -/
def digitRun (base : Nat) : List Char → List Char × List Char
  | '_' :: c :: cs =>
    if isDigitOf base c then
      let (ds, rest) := digitRun base cs
      (c :: ds, rest)
    else ([], '_' :: c :: cs)
  | c :: cs =>
    if isDigitOf base c then
      let (ds, rest) := digitRun base cs
      (c :: ds, rest)
    else ([], c :: cs)
  | [] => ([], [])

/-- Digits that do not begin with an underscore. -/
def digits (base : Nat) : List Char → List Char × List Char
  | '_' :: cs => ([], '_' :: cs)
  | cs => digitRun base cs

/-- A fraction: the digits after a point. -/
def fraction (cs : List Char) : List Char × List Char :=
  match cs with
  | '.' :: rest =>
    let (ds, rest') := digits 10 rest
    if ds.isEmpty then ([], cs) else (ds, rest')
  | _ => ([], cs)

def exponent? (cs : List Char) : Option Int × List Char :=
  match cs with
  | e :: rest =>
    if e == 'e' || e == 'E' then
      let (negative, ds) := match rest with
        | '-' :: ds => (true, ds)
        | '+' :: ds => (false, ds)
        | ds => (false, ds)
      let (power, rest) := digits 10 ds
      if power.isEmpty then (none, cs) else (some (signed negative (valueOf 10 power)), rest)
    else (none, cs)
  | [] => (none, cs)

/-- A number in base ten without its sign. A zero in front stands alone. -/
def decimal? (negative : Bool) (cs : List Char) : Option (Except FormatError (Value × List Char)) :=
  let (whole, rest) := match cs with
    | '0' :: rest => (['0'], rest)
    | _ => digits 10 cs
  if whole.isEmpty then none
  else
    let (places, rest) := fraction rest
    let (power, rest) := exponent? rest
    if places.isEmpty && power.isNone then
      some <| match decimalValue whole with
        | .ok n => .ok (.int (signed negative n), rest)
        | .error e => .error (.tooLong e)
    else
      let x := nearestFloat (valueOf 10 (whole ++ places)) (power.getD 0 - places.length)
      some (.ok (.float (signedFloat negative x), rest))

/-- A number in base 16, 8 or 2. -/
def based? (cs : List Char) : Option (Value × List Char) :=
  let base? : Option (Nat × List Char) := match cs with
    | '0' :: 'x' :: rest => some (16, rest)
    | '0' :: 'o' :: rest => some (8, rest)
    | '0' :: 'b' :: rest => some (2, rest)
    | _ => none
  match base? with
  | none => none
  | some (base, rest) =>
    let (ds, rest) := digits base rest
    if ds.isEmpty then none else some (.int (valueOf base ds), rest)

def special? (cs : List Char) : Option (Value × List Char) :=
  let (negative, body) := match cs with
    | '-' :: rest => (true, rest)
    | '+' :: rest => (false, rest)
    | rest => (false, rest)
  match dropWord? ['i', 'n', 'f'] body with
  | some rest => some (.float (signedFloat negative (1.0 / 0.0)), rest)
  | none => (dropWord? ['n', 'a', 'n'] body).map fun rest => (.float (0.0 / 0.0), rest)

def number (cs : List Char) : Except FormatError (Value × List Char) :=
  match based? cs with
  | some r => .ok r
  | none =>
    let (negative, body) := match cs with
      | '-' :: rest => (true, rest)
      | '+' :: rest => (false, rest)
      | rest => (false, rest)
    match decimal? negative body with
    | some r => r
    | none =>
      match special? cs with
      | some r => .ok r
      | none => .error .malformed

/-- A scalar that is no string. -/
def bareScalar (cs : List Char) : Except FormatError (Value × List Char) :=
  match dropWord? "true".toList cs, dropWord? "false".toList cs with
  | some rest, _ => .ok (.bool true, rest)
  | _, some rest => .ok (.bool false, rest)
  | none, none =>
    match moment? cs with
    | some r => r.map fun m => (.moment m.1, m.2)
    | none => number cs

end CommentGrade.Toml
