import CommentGrade.Yaml.ReadError

/-!
# Binary scalars

Bytes written with 64 characters, four for three bytes. Characters outside the alphabet are skipped; an equals sign
fills up the last four.
-/
namespace CommentGrade.Yaml

/-- The number that a character of the alphabet stands for. -/
def sextet? (c : Char) : Option Nat :=
  if 'A' ≤ c ∧ c ≤ 'Z' then some (c.toNat - 0x41)
  else if 'a' ≤ c ∧ c ≤ 'z' then some (c.toNat - 0x61 + 26)
  else if c.isDigit then some (c.toNat - 0x30 + 52)
  else if c = '+' then some 62
  else if c = '/' then some 63
  else none

/-- The bytes of the characters to come. The numbers are: how many characters of a group of four have been read,
the bits of the last one that are still to be used, and how many fillers have been seen. -/
def sextetBytes : Nat → Nat → Nat → List Char → Except FormatError (List UInt8)
  | place, _, _, [] => if place = 0 then .ok [] else .error .malformed
  | place, left, fillers, c :: cs =>
    if c = '=' then
      if 2 ≤ place ∧ 4 ≤ place + fillers + 1 then .ok [] else sextetBytes place left (fillers + 1) cs
    else
      match sextet? c with
      | none => sextetBytes place left fillers cs
      | some n =>
        match place with
        | 0 => sextetBytes 1 n 0 cs
        | 1 => (sextetBytes 2 (n % 16) 0 cs).map (UInt8.ofNat (left * 4 + n / 16) :: ·)
        | 2 => (sextetBytes 3 (n % 4) 0 cs).map (UInt8.ofNat (left * 16 + n / 4) :: ·)
        | _ => (sextetBytes 0 0 0 cs).map (UInt8.ofNat (left * 64 + n) :: ·)

/-- The bytes that a text stands for; it must be ASCII. -/
def bytesOf (cs : List Char) : Except FormatError (List UInt8) :=
  if cs.all fun c => c.toNat < 0x80 then sextetBytes 0 0 0 cs else .error .malformed

end CommentGrade.Yaml
