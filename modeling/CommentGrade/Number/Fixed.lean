import CommentGrade.Number.Shortest

/-!
# Fixed decimal places

A number is rounded from its exact value to the wanted number of places; a half goes to the even neighbour.
-/
namespace CommentGrade.Number

/-- The text of `n / 10 ^ places`. -/
def placesText (places n : Nat) : String :=
  if places == 0 then toString n
  else toString (n / Nat.pow 10 places) ++ "." ++ zeroPad places (toString (n % Nat.pow 10 places))

/-- The text of a number with a fixed number of decimal places. -/
def fixedText (places : Nat) (x : Float) : String :=
  match Binary.ofFloat x with
  | .notANumber => "nan"
  | .infinite negative => if negative then "-inf" else "inf"
  | .finite negative m e =>
    let (up, down) := scale e
    (if negative then "-" else "") ++ placesText places (roundDiv (m * Nat.pow 2 up * Nat.pow 10 places) (Nat.pow 2 down))

/-- Puts blanks on the left of a text until it has the given width. -/
def alignRight (width : Nat) (s : String) : String :=
  String.ofList (List.replicate (width - s.length) ' ') ++ s

/-- Puts blanks on the right of a text until it has the given width. -/
def alignLeft (width : Nat) (s : String) : String :=
  s ++ String.ofList (List.replicate (width - s.length) ' ')

end CommentGrade.Number
