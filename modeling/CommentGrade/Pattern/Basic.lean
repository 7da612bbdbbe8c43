/-!
# Patterns

The expressions that comments are found with: literals, a few sets of characters, the start of a line, sequence,
ordered choice, numbered groups and repetition.
-/
namespace CommentGrade

/-- The sets of characters that patterns are made of. -/
inductive CharSet where
  | char (c : Char)
  /-- The tabulator, written as an escape. -/
  | tab
  | blankOrTab
  /-- White space. -/
  | space
  | any
  /-- Every character but the carriage return and the line feed. -/
  | inLine
  deriving DecidableEq, Repr

/-- A pattern. Bodies of repetitions are groups or sets. -/
inductive Pattern where
  | empty
  | set (s : CharSet)
  /-- The start of the text or, where lines count, of a line. -/
  | lineStart
  | seq (p q : Pattern)
  /-- The first alternative, or else the second. -/
  | alt (p q : Pattern)
  /-- A part whose place is remembered under a number. -/
  | group (index : Nat) (p : Pattern)
  /-- Any number of times, as often as possible or, if reluctant, as seldom as possible. -/
  | star (p : Pattern) (reluctant : Bool)
  /-- At least once, as often as possible. -/
  | plus (p : Pattern)
  deriving DecidableEq, Repr

namespace Pattern

/-- Exactly the given text. -/
def literal : List Char → Pattern
  | [] => .empty
  | [c] => .set (.char c)
  | c :: cs => .seq (.set (.char c)) (literal cs)

/-- One of the given texts, the earlier ones first. -/
def oneOf : List (List Char) → Pattern
  | [] => .empty
  | [t] => literal t
  | t :: ts => .alt (literal t) (oneOf ts)

def inOrder : List Pattern → Pattern
  | [] => .empty
  | [p] => p
  | p :: ps => .seq p (inOrder ps)

end Pattern

/-- A pattern with the two choices about how it is matched. -/
structure Expression where
  pattern : Pattern
  /-- Whether characters that differ in case only are taken as equal. -/
  caseless : Bool
  /-- Whether a line starts after each line feed. -/
  everyLine : Bool
  deriving DecidableEq, Repr

end CommentGrade
