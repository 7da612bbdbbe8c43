import CommentGrade.Text.Blank

/-!
# Similarity of names

How much two names are alike, from 0 to 100, by the length of their longest common subsequence. Names of
similar length are compared as a whole; otherwise the shorter one is moved along the longer one, and the result
counts for less.
-/
namespace CommentGrade.Language

/-- The next row of the table of common subsequence lengths, from the row above. -/
def nextRow (c : Char) : List Char → List Nat → Nat → List Nat
  | d :: ds, diagonal :: above :: row, left =>
    let here := if c = d then diagonal + 1 else max left above
    here :: nextRow c ds (above :: row) here
  | _, _, _ => []

def commonLength (a b : List Char) : Nat :=
  (a.foldl (fun row c => 0 :: nextRow c b row 0) (List.replicate (b.length + 1) 0)).getLast?.getD 0

/-- The share of the characters of both names that belong to the common subsequence. -/
def ratio (a b : List Char) : Float :=
  let total := a.length + b.length
  if total = 0 then 100.0
  else (1.0 - (total - 2 * commonLength a b).toFloat / total.toFloat) * 100.0

def maximum (xs : List Float) : Float := xs.foldl (fun m x => if m < x then x else m) 0.0

/-- The pieces of a name that a name of length `m` is laid against: shorter beginnings, whole windows, shorter
ends. -/
def pieces (m : Nat) (b : List Char) : List (List Char) :=
  (List.range m).map (fun i => b.take i) ++
    (List.range (b.length + 1 - m)).map (fun i => (b.drop i).take m) ++
    (List.range m).map (fun i => b.drop (b.length - i))

/-- The best ratio of the shorter name to a piece of the longer one. -/
def partialRatio (a b : List Char) : Float :=
  let best (x y : List Char) : Float := maximum ((pieces x.length y).map (ratio x))
  if a.isEmpty || b.isEmpty then 0.0
  else if a.length < b.length then best a b
  else if b.length < a.length then best b a
  else maximum [best a b, best b a]

/-- Words in alphabetical order, parted by single blanks. -/
def sortedWords (ws : List (List Char)) : List Char :=
  (" ".intercalate ((ws.map String.ofList).mergeSort fun a b => decide (a ≤ b))).toList

/-- How well an identifier fits a query, which may be several words. -/
def similarity (query id : String) : Float :=
  let q := query.toList
  let c := id.toList
  let ws := Text.words q
  let sorted := sortedWords ws
  let distinct := sortedWords ws.eraseDups
  let longer := (max q.length c.length).toFloat
  let shorter := (min q.length c.length).toFloat
  let among := ws.contains c
  if longer / shorter < 1.5 then
    let wordwise := if among then 100.0 else maximum [ratio sorted c, ratio distinct c]
    maximum [ratio q c, wordwise * 0.95]
  else
    let scale := if longer / shorter ≤ 8.0 then 0.9 else 0.6
    let wordwise := if among then 100.0 else maximum [partialRatio sorted c, partialRatio distinct c]
    maximum [ratio q c, partialRatio q c * scale, wordwise * 0.95 * scale]

end CommentGrade.Language
