import CommentGrade.Language.Registry
import CommentGrade.Language.Similarity

/-!
# Suggesting a language

For a name that is no supported identifier, the most similar one is suggested if it is similar enough. The
measure of similarity is a parameter.
-/
namespace CommentGrade.Language

variable {α : Type} [LT α] [DecidableLT α] [LE α] [DecidableLE α]

/-- The candidate with the highest score, the first of equals. -/
def best? (score : String → α) : List String → Option (String × α)
  | [] => none
  | id :: ids => some (ids.foldl (fun b c => if b.2 < score c then (c, score c) else b) (id, score id))

/-- The supported identifier that is most similar to a name, if its score reaches the threshold. -/
def suggest? (score : String → String → α) (threshold : α) (name : String) : Option String :=
  if name = "" then none
  else if supportedIds.contains name then some name
  else
    match best? (score name) supportedIds with
    | some (id, s) => if threshold ≤ s then some id else none
    | none => none

/-- The score from which on an identifier is suggested. -/
def suggestionThreshold : Float := 80.0

end CommentGrade.Language
