import CommentGrade.Pattern.Matching
import CommentGrade.Text.Position
import Mathlib.Data.List.Basic

/-!
# Places of a text

A match is a walk over the offsets of one text. `Cursor.inText` is the place at an offset, and `occursAt` says that
characters of given sets stand there one after the other. A pattern that `Reads` a sequence of sets goes on behind
their occurrence, remembers nothing, and has no other way to match.
-/
namespace CommentGrade

/-- The place at an offset of a text. -/
def Cursor.inText (cs : List Char) (i : Nat) : Cursor := ⟨(cs.take i).getLast?, i, cs.drop i⟩

namespace Cursor

@[simp] theorem inText_offset (cs : List Char) (i : Nat) : (inText cs i).offset = i := rfl

@[simp] theorem inText_rest_length (cs : List Char) (i : Nat) :
    (inText cs i).rest.length = cs.length - i := by simp [inText]

theorem inText_succ {cs : List Char} {i : Nat} {c : Char} {rest : List Char}
    (h : cs.drop i = c :: rest) : inText cs (i + 1) = ⟨some c, i + 1, rest⟩ := by
  have hc : cs[i]? = some c := by rw [← List.head?_drop, h, List.head?_cons]
  have hrest : cs.drop (i + 1) = rest := by rw [← List.tail_drop, h, List.tail_cons]
  simp [inText, hrest, List.take_add_one, hc]

end Cursor

namespace Text

/-- Whether characters of the given sets stand one after the other at an offset. -/
def occursAt (caseless : Bool) : List CharSet → List Char → Nat → Bool
  | [], _, _ => true
  | s :: sets, cs, i => cs[i]?.any (s.contains caseless) && occursAt caseless sets cs (i + 1)

@[simp] theorem occursAt_nil (caseless : Bool) (cs : List Char) (i : Nat) :
    occursAt caseless [] cs i = true := rfl

@[simp] theorem occursAt_cons (caseless : Bool) (s : CharSet) (sets : List CharSet)
    (cs : List Char) (i : Nat) : occursAt caseless (s :: sets) cs i =
      (cs[i]?.any (s.contains caseless) && occursAt caseless sets cs (i + 1)) := rfl

theorem occursAt_append (caseless : Bool) (u v : List CharSet) (cs : List Char) (i : Nat) :
    occursAt caseless (u ++ v) cs i =
      (occursAt caseless u cs i && occursAt caseless v cs (i + u.length)) := by
  induction u generalizing i with
  | nil => simp
  | cons s u ih =>
    simp only [List.cons_append, occursAt_cons, ih, List.length_cons, Bool.and_assoc]
    rw [show i + 1 + u.length = i + (u.length + 1) by omega]

theorem length_le_of_occursAt {caseless : Bool} {sets : List CharSet} {cs : List Char} {i : Nat}
    (hne : sets ≠ []) (h : occursAt caseless sets cs i = true) : i + sets.length ≤ cs.length := by
  induction sets generalizing i with
  | nil => exact absurd rfl hne
  | cons s sets ih =>
    simp only [occursAt_cons, Bool.and_eq_true, Option.any_eq_true] at h
    obtain ⟨⟨c, hc, -⟩, htail⟩ := h
    have hi : i < cs.length := (List.getElem?_eq_some_iff.mp hc).1
    cases sets with
    | nil => exact hi
    | cons t sets =>
      have := ih (by simp) htail
      simp only [List.length_cons] at this ⊢
      omega

/-- Whether a line begins at an offset: before it is nothing or a line feed. -/
def isLineStart (cs : List Char) (i : Nat) : Bool := (cs.take i).getLast?.all (· == '\n')

theorem atLineStart_inText (cs : List Char) (i : Nat) :
    (Cursor.inText cs i).atLineStart true = isLineStart cs i := by
  simp only [Cursor.atLineStart, Cursor.inText, isLineStart]
  cases (cs.take i).getLast? <;> rfl

/-- The first offset, from a given one on, whose character is not in a class, or the end of the text. -/
def skip (p : Char → Bool) (cs : List Char) (i : Nat) : Nat := i + ((cs.drop i).takeWhile p).length

theorem le_skip (p : Char → Bool) (cs : List Char) (i : Nat) : i ≤ skip p cs i := Nat.le_add_right _ _

theorem skip_le (p : Char → Bool) {cs : List Char} {i : Nat} (hi : i ≤ cs.length) :
    skip p cs i ≤ cs.length := by
  have h := (List.takeWhile_sublist p (l := cs.drop i)).length_le
  rw [List.length_drop] at h
  simp only [skip]
  omega

theorem take_drop_skip (p : Char → Bool) (cs : List Char) (i : Nat) :
    (cs.drop i).take (skip p cs i - i) = (cs.drop i).takeWhile p := by
  rw [skip, Nat.add_sub_cancel_left]
  exact (List.prefix_iff_eq_take.mp (List.takeWhile_prefix p)).symm

theorem drop_skip (p : Char → Bool) (cs : List Char) (i : Nat) : cs.drop (skip p cs i) = (cs.drop i).dropWhile p := by
  have hsplit : (cs.drop i).takeWhile p ++ (cs.drop i).dropWhile p = cs.drop i := List.takeWhile_append_dropWhile
  calc
    cs.drop (skip p cs i) = (cs.drop i).drop ((cs.drop i).takeWhile p).length := by rw [skip, List.drop_drop]
    _ = ((cs.drop i).takeWhile p ++ (cs.drop i).dropWhile p).drop ((cs.drop i).takeWhile p).length := by rw [hsplit]
    _ = (cs.drop i).dropWhile p := List.drop_left

theorem between_skip (p : Char → Bool) (cs : List Char) (i : Nat) :
    between cs i (skip p cs i) = (cs.drop i).takeWhile p := by
  rw [between, List.drop_take, take_drop_skip]

/-- A text as a sequence of sets of one character each. -/
def exactly (w : List Char) : List CharSet := w.map .char

@[simp] theorem exactly_length (w : List Char) : (exactly w).length = w.length := by
  simp [exactly]

theorem exactly_ne_nil {w : List Char} (h : w ≠ []) : exactly w ≠ [] := by
  simpa [exactly] using h

end Text

namespace Pattern

open Text

variable {α : Type} {caseless everyLine : Bool} {cs : List Char} {i : Nat} {caps : Captures}

theorem run_set (s : CharSet) (next : Next α) :
    run caseless everyLine (.set s) (.inText cs i) caps next =
      if occursAt caseless [s] cs i then next (.inText cs (i + 1)) caps else none := by
  cases h : cs.drop i with
  | nil =>
    have hnone : cs[i]? = none := by rw [← List.head?_drop, h, List.head?_nil]
    simp [run, Cursor.inText, h, hnone]
  | cons c rest =>
    have hc : cs[i]? = some c := by rw [← List.head?_drop, h, List.head?_cons]
    rw [Cursor.inText_succ h]
    simp [run, Cursor.inText, h, hc]

theorem run_lineStart (next : Next α) :
    run caseless true .lineStart (.inText cs i) caps next =
      if isLineStart cs i then next (.inText cs i) caps else none := by
  rw [run, atLineStart_inText]

/-- A pattern that matches the occurrences of a sequence of sets in one way and nothing else. -/
structure Reads (caseless everyLine : Bool) (p : Pattern) (sets : List CharSet) : Prop where
  run_eq : ∀ {α : Type} (cs : List Char) (i : Nat) (caps : Captures) (next : Next α),
    p.run caseless everyLine (.inText cs i) caps next =
      if occursAt caseless sets cs i then next (.inText cs (i + sets.length)) caps else none

theorem reads_empty : Reads caseless everyLine .empty [] := by
  refine ⟨?_⟩
  intro α cs i caps next
  simp [run]

theorem reads_set (s : CharSet) : Reads caseless everyLine (.set s) [s] := by
  refine ⟨?_⟩
  intro α cs i caps next
  exact run_set s next

theorem Reads.seq {p q : Pattern} {u v : List CharSet} (hp : Reads caseless everyLine p u)
    (hq : Reads caseless everyLine q v) : Reads caseless everyLine (.seq p q) (u ++ v) := by
  refine ⟨?_⟩
  intro α cs i caps next
  rw [run, hp.run_eq, occursAt_append, List.length_append, ← Nat.add_assoc]
  cases hu : occursAt caseless u cs i with
  | false => simp
  | true => simp only [if_true, Bool.true_and, hq.run_eq cs (i + u.length)]

theorem reads_literal (w : List Char) : Reads caseless everyLine (literal w) (exactly w) := by
  induction w with
  | nil => exact reads_empty
  | cons c w ih =>
    cases w with
    | nil => exact reads_set (.char c)
    | cons d w => exact (reads_set (.char c)).seq ih

end Pattern

end CommentGrade
