import CommentGrade.Decoding.Encoding

/-!
# Reading a text file

A file with too many control characters is taken for binary. The others are decoded with the first of the
candidate encodings that they fit.
-/
namespace CommentGrade.Files

/-- A byte that does not occur in texts. -/
def isControl (b : UInt8) : Bool :=
  let n := b.toNat
  n ≤ 8 || n == 11 || n == 12 || (14 ≤ n && n ≤ 31)

variable {α : Type} [NatCast α] [Div α] [LT α] [DecidableLT α]

/-- Whether bytes are a text: none at all, or with a share of control characters below a threshold. -/
def isText (threshold : α) (bs : List UInt8) : Bool :=
  bs.isEmpty || decide (((bs.countP isControl : Nat) : α) / ((bs.length : Nat) : α) < threshold)

/-- The share of control characters from which on a file is binary. -/
def usualThreshold : Rat := 0.3

/-- The text of a file, unless it is missing, binary, or in none of the encodings. -/
def readText? (candidates : List Encoding) (content : Option (List UInt8)) : Option (List Char) :=
  match content with
  | none => none
  | some bs => if isText usualThreshold bs then Encoding.firstFit? candidates bs else none

end CommentGrade.Files
