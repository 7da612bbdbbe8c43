import CommentGrade.Language.Registry
import CommentGrade.Text.Position

/-!
# Documents

A text as a host hands it over, with its language and its address.
-/
namespace CommentGrade

structure Document where
  text : String
  languageId : String := Language.plainTextId
  uri : Option String := none
  deriving DecidableEq, Repr

namespace Document

def positionAt (d : Document) (offset : Int) : Position := Text.positionAt d.text.toList offset

/-- The number of the line that an offset is on; offsets outside the text count as its ends. -/
def lineOf (d : Document) (offset : Int) : Nat :=
  Text.lineAt d.text.toList (Text.clamp d.text.toList offset)

/-- The text between two offsets, either of which may be negative or outside. -/
def getText (d : Document) (start stop : Int) : String :=
  String.ofList (Text.slice d.text.toList start stop)

end Document

end CommentGrade
