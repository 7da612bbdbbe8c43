/-!
# Positions in a text

An offset counts characters. A position is the number of line feeds before an offset and the number of characters
since the last of them.
-/
namespace CommentGrade

/-- A line and a column, both counted from zero. -/
structure Position where
  line : Nat
  column : Nat
  deriving DecidableEq, Repr

namespace Text

/-- The number of the line that an offset is on. -/
def lineAt (cs : List Char) (offset : Nat) : Nat := (cs.take offset).count '\n'

/-- The last line feed before an offset. -/
def lastFeed? (cs : List Char) (offset : Nat) : Option Nat :=
  ((cs.take offset).reverse.idxOf? '\n').map (offset - 1 - ·)

/-- The number of characters between the start of its line and an offset. -/
def columnAt (cs : List Char) (offset : Nat) : Nat :=
  match lastFeed? cs offset with
  | some i => offset - (i + 1)
  | none => offset

/-- An offset moved to the nearer end of the text if it is outside. -/
def clamp (cs : List Char) (offset : Int) : Nat := min offset.toNat cs.length

/-- The position of an offset; offsets outside the text count as its ends. -/
def positionAt (cs : List Char) (offset : Int) : Position :=
  if offset ≤ 0 then ⟨0, 0⟩
  else
    let i := min offset.toNat cs.length
    ⟨lineAt cs i, columnAt cs i⟩

/-- The part of a text between two offsets. -/
def between (cs : List Char) (start stop : Nat) : List Char := (cs.take stop).drop start

/-- An end of a range in a text of the given length: negative ends count from the end of the text. -/
def rangeEnd (length : Nat) (i : Int) : Nat :=
  if i < 0 then (length + i).toNat else min i.toNat length

/-- The part of a text in a range whose ends may be negative or outside. -/
def slice (cs : List Char) (start stop : Int) : List Char :=
  between cs (rangeEnd cs.length start) (rangeEnd cs.length stop)

end Text

end CommentGrade
