/-!
# Blank characters

The white space of Unicode, with the four information separators. `words` cuts a text into its maximal
runs of characters that are not blank.
-/
namespace CommentGrade.Text

/-- Whether a character is white space. -/
def isBlank (c : Char) : Bool :=
  let n := c.toNat
  (9 ≤ n && n ≤ 13) || (0x1c ≤ n && n ≤ 0x20) || n == 0x85 || n == 0xa0 || n == 0x1680 ||
    (0x2000 ≤ n && n ≤ 0x200a) || n == 0x2028 || n == 0x2029 || n == 0x202f || n == 0x205f || n == 0x3000

/-- Whether a text has no character but white space. -/
def isAllBlank (cs : List Char) : Bool := cs.all isBlank

/-- The text without the characters of a class at its two ends. -/
def stripOf (p : Char → Bool) (cs : List Char) : List Char :=
  ((cs.dropWhile p).reverse.dropWhile p).reverse

/-- The text without the white space at its two ends. -/
def strip (cs : List Char) : List Char := stripOf isBlank cs

/-- The maximal runs of characters that are not blank, in order. -/
def words (cs : List Char) : List (List Char) :=
  (cs.splitOnP isBlank).filter (!·.isEmpty)

end CommentGrade.Text
