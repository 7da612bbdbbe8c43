/-!
# Tables of code points

A property of characters is given by the ranges of code points that have it.
-/
namespace CommentGrade.Text

/-- Ascending, disjoint ranges of code points, both ends included. -/
abbrev Ranges := Array (Nat × Nat)

/-- Whether one of the ranges holds a code point. -/
def Ranges.contains (rs : Ranges) (n : Nat) : Bool :=
  rs.any fun r => r.1 ≤ n && n ≤ r.2

end CommentGrade.Text
