/-!
# Language profiles

What the comments of a language look like. The delimiters are kept as they stand in a source text.
-/
namespace CommentGrade

structure Delimiters where
  opening : String
  closing : String
  deriving DecidableEq, Repr

structure Profile where
  supported : Bool := false
  /-- What starts a comment that ends with its line. -/
  lineDelimiter : Option String := none
  block : Option Delimiters := none
  /-- Whether the language has doc blocks, from a slash and two stars to a star and a slash. -/
  docBlocks : Bool := false
  /-- Whether a comment at the very start of a text is an instruction to the system. -/
  skipsFirstLine : Bool := false
  /-- Whether every line of a text may count as a comment. -/
  plainText : Bool := false
  deriving DecidableEq, Repr

namespace Profile

/-- The profile of a language that nothing is known about. -/
def unsupported : Profile := {}

/-- A language with line comments only. -/
def line (delimiter : String) : Profile := { supported := true, lineDelimiter := some delimiter }

def blocks (delimiter opening closing : String) : Profile :=
  { supported := true, lineDelimiter := some delimiter, block := some ⟨opening, closing⟩ }

end Profile

end CommentGrade
