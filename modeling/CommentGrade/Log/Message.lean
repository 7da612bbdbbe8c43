import CommentGrade.Value.Basic

/-!
# Messages

A message is made from a template and arguments. `%s` stands for the text of the next argument, `%d` for its integer
part, `%%` for a per cent sign. A template without arguments is taken as it is.
-/
namespace CommentGrade.Log

open Number

/-- The integer that a number has towards zero; a truth value counts as 0 or 1. -/
def integerOf? : Value → Option Int
  | .int n => some n
  | .bool b => some (if b then 1 else 0)
  | .float x =>
    match (Binary.ofFloat x).floor, (Binary.ofFloat (-x)).floor with
    | .ok below, .ok above => some (if 0 ≤ below then below else -above)
    | _, _ => none
  | _ => none

/-- The template with its placeholders filled, if they go with the arguments. -/
def fill? : List Char → List Value → Option (List Char)
  | [], [] => some []
  | [], _ :: _ => none
  | '%' :: '%' :: cs, args => (fill? cs args).map ('%' :: ·)
  | '%' :: 's' :: cs, v :: args => (fill? cs args).map (v.text.toList ++ ·)
  | '%' :: 'd' :: cs, v :: args => do
    let n ← integerOf? v
    let rest ← fill? cs args
    return (toString n).toList ++ rest
  | '%' :: _, _ => none
  | c :: cs, args => (fill? cs args).map (c :: ·)

def message? (template : String) (args : List Value) : Option String :=
  match args with
  | [] => some template
  | _ :: _ => (fill? template.toList args).map String.ofList

end CommentGrade.Log
