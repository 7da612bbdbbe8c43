import CommentGrade.Value.Calendar
import CommentGrade.Value.ReadError

/-!
# Errors of YAML

A text may describe no tree of nodes, or one with a scalar that is not what its tag says.
-/
namespace CommentGrade

/-- Why a text describes no tree of nodes. -/
inductive TreeError where
  | malformed
  | tooLong (numeral : Number.TooLong)
  /-- An escape beyond the last code point. -/
  | codePoint (code : Nat)
  deriving DecidableEq, Repr

/-- The largest number that can be asked for as a code. -/
def maxCode : Nat := 0x7fffffff

/-- What is said about a text that describes no tree; of a code that is too large nothing. -/
def TreeError.message : TreeError → String
  | .malformed => ""
  | .tooLong e => e.message
  | .codePoint code => if code ≤ maxCode then "chr() arg not in range(0x110000)" else ""

inductive ReadError where
  | format (e : FormatError)
  | tree (e : TreeError)
  | calendar (e : CalendarError)
  /-- A scalar that is said to be an integer in a base and is none. -/
  | notInteger (base : Nat) (quoted : String)
  /-- A scalar that is said to be a float and is none. -/
  | notFloat (quoted : String)
  /-- A scalar that is said to be a truth value and is none. -/
  | notTruthValue (quoted : String)
  /-- A scalar that is said to be a number and has no digits. -/
  | emptyNumeral
  /-- A scalar that is said to be a moment and is none. -/
  | notMoment
  /-- A float of so many parts that the first ones count more than any float. -/
  | weightTooLarge
  deriving DecidableEq, Repr

/-- What is said about a scalar that stands for no value. -/
def ReadError.message : ReadError → String
  | .format e => e.message
  | .tree e => e.message
  | .calendar e => e.message
  | .notInteger base quoted => "invalid literal for int() with base " ++ toString base ++ ": " ++ quoted
  | .notFloat quoted => "could not convert string to float: " ++ quoted
  | .notTruthValue quoted => quoted
  | .emptyNumeral => "string index out of range"
  | .notMoment => "'NoneType' object has no attribute 'groupdict'"
  | .weightTooLarge => "int too large to convert to float"

namespace ReadError

/-- The family and the name under which an error is raised. -/
def origin : ReadError → ErrorFamily × String
  | .notTruthValue _ => (.other, "KeyError")
  | .emptyNumeral => (.other, "IndexError")
  | .notMoment => (.other, "AttributeError")
  | .weightTooLarge => (.other, "OverflowError")
  | .tree (.codePoint code) => if code ≤ maxCode then (.value, "ValueError") else (.other, "OverflowError")
  | .format _ | .tree _ | .calendar _ | .notInteger .. | .notFloat _ => (.value, "ValueError")

/-- What an error is to those who ask for a value. -/
def toDocumentError : ReadError → DocumentError
  | .format .malformed | .tree .malformed => .malformed
  | e => .raised e.origin.1 e.origin.2 e.message

end ReadError

end CommentGrade
