import CommentGrade.Proofs.Pattern.Repetition
import CommentGrade.Proofs.Text.Lines

/-!
# Texts joined by an end of a line

Two texts with a character between them. What does not take the character goes in the first text as if it ended there.
Behind a line feed it goes in the second text as if that began there, moved by the length of the first text and the
line feed.
-/
namespace CommentGrade.Text

variable {a b : List Char} {x : Char} {i j : Nat} {caseless : Bool}

theorem getElem?_seam (a b : List Char) (x : Char) : (a ++ x :: b)[a.length]? = some x := by
  rw [List.getElem?_append_right (Nat.le_refl _), Nat.sub_self, List.getElem?_cons_zero]

theorem drop_behind (a b : List Char) (i : Nat) : (a ++ '\n' :: b).drop (a.length + 1 + i) = b.drop i := by
  rw [Nat.add_assoc, List.drop_length_add_append, Nat.add_comm 1 i, List.drop_succ_cons]

theorem take_behind (a b : List Char) (i : Nat) :
    (a ++ '\n' :: b).take (a.length + 1 + i) = a ++ '\n' :: b.take i := by
  rw [Nat.add_assoc, List.take_length_add_append, Nat.add_comm 1 i, List.take_succ_cons]

theorem getElem?_behind (a b : List Char) (i : Nat) : (a ++ '\n' :: b)[a.length + 1 + i]? = b[i]? := by
  rw [← List.head?_drop, drop_behind, List.head?_drop]

section Sets

variable {sets : List CharSet}

/-- An occurrence does not lead over a character that it does not take. -/
theorem occursAt_before (hsets : ∀ s ∈ sets, s.contains caseless x = false) (hi : i ≤ a.length) :
    occursAt caseless sets (a ++ x :: b) i = occursAt caseless sets a i := by
  induction sets generalizing i with
  | nil => rfl
  | cons s sets ih =>
    rw [occursAt_cons, occursAt_cons]
    rcases Nat.lt_or_eq_of_le hi with hlt | rfl
    · rw [List.getElem?_append_left hlt, ih (fun t ht => hsets t (List.mem_cons_of_mem s ht)) hlt]
    · have hnone : a[a.length]? = none := List.getElem?_eq_none (Nat.le_refl _)
      rw [getElem?_seam, hnone, Option.any_some, hsets s List.mem_cons_self]
      rfl

theorem occursAt_behind (a b : List Char) (i : Nat) :
    occursAt caseless sets (a ++ '\n' :: b) (a.length + 1 + i) = occursAt caseless sets b i := by
  induction sets generalizing i with
  | nil => rfl
  | cons s sets ih => rw [occursAt_cons, occursAt_cons, getElem?_behind, Nat.add_assoc, ih]

theorem stepOver_before (hsets : ∀ s ∈ sets, s.contains caseless x = false) (hi : i ≤ a.length) :
    stepOver caseless sets (a ++ x :: b) i = stepOver caseless sets a i := by
  rw [stepOver, stepOver, occursAt_before hsets hi]

theorem stepOver_behind (a b : List Char) (i : Nat) :
    stepOver caseless sets (a ++ '\n' :: b) (a.length + 1 + i) =
      (stepOver caseless sets b i).map (a.length + 1 + ·) := by
  rw [stepOver, stepOver, occursAt_behind]
  split_ifs
  · rw [Option.map_some, Nat.add_assoc (a.length + 1)]
  · rfl

end Sets

section Skip

variable {p : Char → Bool}

theorem skip_before (hp : p x = false) (hi : i ≤ a.length) : skip p (a ++ x :: b) i = skip p a i := by
  have htake : ∀ l : List Char, (l ++ x :: b).takeWhile p = l.takeWhile p := by
    intro l
    induction l with
    | nil => simp [hp]
    | cons c l ih => simp only [List.cons_append, List.takeWhile_cons, ih]
  rw [skip, skip, List.drop_append_of_le_length hi, htake]

theorem skip_behind (a b : List Char) (i : Nat) :
    skip p (a ++ '\n' :: b) (a.length + 1 + i) = a.length + 1 + skip p b i := by
  rw [skip, skip, drop_behind, Nat.add_assoc]

end Skip

section Lines

theorem isLineStart_before (hi : i ≤ a.length) : isLineStart (a ++ x :: b) i = isLineStart a i := by
  rw [isLineStart, isLineStart, List.take_append_of_le_length hi]

theorem isLineStart_behind (a b : List Char) (i : Nat) :
    isLineStart (a ++ '\n' :: b) (a.length + 1 + i) = isLineStart b i := by
  rw [isLineStart, isLineStart, take_behind]
  cases hlast : (b.take i).getLast? with
  | none =>
    have hnil : b.take i = [] := List.getLast?_eq_none_iff.mp hlast
    simp [hnil]
  | some c => simp [List.getLast?_cons, hlast]

theorem lineAt_before (hi : i ≤ a.length) : lineAt (a ++ x :: b) i = lineAt a i := by
  rw [lineAt, lineAt, List.take_append_of_le_length hi]

theorem lineAt_behind (a b : List Char) (i : Nat) :
    lineAt (a ++ '\n' :: b) (a.length + 1 + i) = lineAt b i + (a.count '\n' + 1) := by
  rw [lineAt, lineAt, take_behind, List.count_append, List.count_cons_self]
  omega

theorem between_before (hj : j ≤ a.length) : between (a ++ x :: b) i j = between a i j := by
  rw [between, between, List.take_append_of_le_length hj]

theorem between_behind (a b : List Char) (i j : Nat) :
    between (a ++ '\n' :: b) (a.length + 1 + i) (a.length + 1 + j) = between b i j := by
  rw [between, between, take_behind, drop_behind]

end Lines

end CommentGrade.Text
