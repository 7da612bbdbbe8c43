import CommentGrade.Proofs.Summary.Quartiles

/-!
# Box plots of scaled and shifted values

In exact arithmetic a box plot follows its values when they are scaled and shifted. A negative factor reverses their
order: the lower half, read backwards, becomes the upper one, since both are cut equally far from the ends.
-/
namespace CommentGrade

open Readability

namespace Readability

variable {g : Rat → Rat}

end Readability

namespace Fence

section Middle

variable {m : Rat} {xs : List Rat} {first last : Nat}

theorem IsMiddle.map (h : IsMiddle m xs first last) (a b : Rat) :
    IsMiddle (a * m + b) (xs.map fun x => a * x + b) first last := by
  obtain ⟨u, v, hu, hv, rfl⟩ := h
  refine ⟨a * u + b, a * v + b, ?_, ?_, by ring⟩
  · rw [List.getElem?_map, hu, Option.map_some]
  · rw [List.getElem?_map, hv, Option.map_some]

/-- Read backwards, a part is as far from the end as it was from the start, and has the same items in the middle. -/
theorem IsMiddle.reverse (h : IsMiddle m xs first last) (hlt : first < last) (hlast : last ≤ xs.length) :
    IsMiddle m xs.reverse (xs.length - last) (xs.length - first) := by
  obtain ⟨u, v, hu, hv, hm⟩ := h
  refine ⟨v, u, ?_, ?_, by rw [hm, add_comm]⟩
  · rw [List.getElem?_reverse (by omega), ← hv]
    congr 1
    omega
  · rw [List.getElem?_reverse (by omega), ← hu]
    congr 1
    omega

end Middle

section Box

variable {f : Fence Rat} {sorted : List Rat} {a : Rat}

end Box

end Fence

end CommentGrade
