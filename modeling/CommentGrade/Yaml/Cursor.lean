import CommentGrade.Yaml.ReadError

/-!
# A place in a YAML text

The characters from a place on, with the line and the column of the place. The end of the text is looked at as if
it were a character of its own.
-/
namespace CommentGrade.Yaml

structure Cursor where
  rest : List Char
  index : Nat := 0
  line : Nat := 0
  column : Nat := 0
  deriving DecidableEq, Repr

/-- Whether a character ends a line. -/
def isBreak (c : Char) : Bool :=
  c == '\n' || c == '\r' || c == '\u0085' || c == '\u2028' || c == '\u2029'

/-- Whether a line ends before what may be a character. -/
def atBreakOrEnd : Option Char → Bool
  | none => true
  | some c => isBreak c

/-- Whether a blank, an end of line or the end of the text comes next. -/
def atSpaceOrEnd : Option Char → Bool
  | none => true
  | some c => c == ' ' || c == '\t' || isBreak c

/-- The same, but a tabulator does not count. -/
def atBlankOrEnd : Option Char → Bool
  | none => true
  | some c => c == ' ' || isBreak c

/-- Whether what may be a character is one of the given. -/
def isOneOf (cs : List Char) : Option Char → Bool
  | none => false
  | some c => cs.contains c

namespace Cursor

def peek (c : Cursor) (ahead : Nat := 0) : Option Char := c.rest[ahead]?

def next (c : Cursor) : Cursor :=
  match c.rest with
  | [] => c
  | x :: rest =>
    if isBreak x && !(x == '\r' && rest.head? == some '\n') then ⟨rest, c.index + 1, c.line + 1, 0⟩
    else ⟨rest, c.index + 1, c.line, if x = '\ufeff' then c.column else c.column + 1⟩

def skip : Nat → Cursor → Cursor
  | 0, c => c
  | n + 1, c => skip n c.next

/-- The number of characters from here on that belong to a class. -/
def run (c : Cursor) (p : Char → Bool) : Nat := (c.rest.takeWhile p).length

/-- The characters of a class from here on, and the place after them. -/
def takeRun (c : Cursor) (p : Char → Bool) : List Char × Cursor := (c.rest.takeWhile p, c.skip (c.run p))

/-- The place after the characters of a class. -/
def skipRun (c : Cursor) (p : Char → Bool) : Cursor := c.skip (c.run p)

/-- The end of a line, as the character that stands for it, and the place after it. -/
def lineBreak (c : Cursor) : List Char × Cursor :=
  match c.rest with
  | '\r' :: '\n' :: _ => (['\n'], c.skip 2)
  | x :: _ =>
    if x = '\u2028' ∨ x = '\u2029' then ([x], c.next)
    else if isBreak x then (['\n'], c.next)
    else ([], c)
  | [] => ([], c)

/-- Whether a line with three hyphens, or with three points, comes next. -/
def atSeparator (c : Cursor) : Bool :=
  let three := c.rest.take 3
  (three == ['-', '-', '-'] || three == ['.', '.', '.']) && atSpaceOrEnd (c.peek 3)

/-- The place after blanks, a comment and the end of the line; nothing else may come before that end. -/
def ignoreLine (c : Cursor) : Except TreeError Cursor :=
  let c := c.skipRun (· == ' ')
  let c := if c.peek == some '#' then c.skipRun (!isBreak ·) else c
  if atBreakOrEnd c.peek then .ok c.lineBreak.2 else .error .malformed

end Cursor

end CommentGrade.Yaml
