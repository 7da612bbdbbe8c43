import CommentGrade.Number.Numeral

/-!
# Errors of readers

A document may break the rules of its format, or be well formed and hold a scalar that stands for no value. A reader that
is not known from inside may fail in other ways.
-/
namespace CommentGrade

/-- Why a text is no document of its format. -/
inductive FormatError where
  /-- The document breaks the rules of its format. -/
  | malformed
  | tooLong (numeral : Number.TooLong)
  deriving DecidableEq, Repr

def FormatError.message : FormatError → String
  | .malformed => ""
  | .tooLong e => e.message

/-- The families of errors that are told apart where errors are caught. -/
inductive ErrorFamily where
  | value
  | system
  | runtime
  | other
  deriving DecidableEq, Repr

/-- Why a reader gives no value: the document breaks the rules of its format, or an error of some family is raised. -/
inductive DocumentError where
  | malformed
  | raised (family : ErrorFamily) (name message : String)
  deriving DecidableEq, Repr

end CommentGrade
