import CommentGrade.Pattern.Basic

/-!
# The written form of patterns

A character that has a meaning in the notation is written after a backslash; all others stand for themselves.
-/
namespace CommentGrade

/-- The characters with a meaning in the notation, and the slash. -/
def isMeta (c : Char) : Bool :=
  ['.', '*', '+', '?', '^', '$', '\x7b', '\x7d', '(', ')', '|', '[', ']', '\\', '/'].contains c

def escapedChar (c : Char) : List Char := if isMeta c then ['\\', c] else [c]

def escaped (cs : List Char) : List Char := cs.flatMap escapedChar

def CharSet.source : CharSet → List Char
  | .char c => escapedChar c
  | .tab => "\\t".toList
  | .blankOrTab => "[ \\t]".toList
  | .space => "[\\s]".toList
  | .any => "[\\s\\S]".toList
  | .inLine => "[^\\r\\n]".toList

def Pattern.source : Pattern → List Char
  | .empty => []
  | .set s => s.source
  | .lineStart => ['^']
  | .seq p q => p.source ++ q.source
  | .alt p q => p.source ++ '|' :: q.source
  | .group _ p => '(' :: p.source ++ [')']
  | .star p reluctant => p.source ++ if reluctant then ['*', '?'] else ['*']
  | .plus p => p.source ++ ['+']

theorem Pattern.source_literal (cs : List Char) : (literal cs).source = escaped cs := by
  induction cs with
  | nil => rfl
  | cons c cs ih =>
    cases cs with
    | nil => exact (List.append_nil (escapedChar c)).symm
    | cons d ds =>
      change escapedChar c ++ (literal (d :: ds)).source = escapedChar c ++ escaped (d :: ds)
      rw [ih]

end CommentGrade
