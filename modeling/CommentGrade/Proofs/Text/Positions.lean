import CommentGrade.Document
import CommentGrade.Proofs.Text.Lines
import Mathlib.Data.Prod.Lex

/-!
# Positions are in the order of offsets

The step to the next offset leads to the next column or, behind a line feed, to the start of the next line. So positions
are in the order of their offsets, and each tells its offset: it is as many characters behind the start of its line as the
column says. Offsets outside the text have the positions of its ends.
-/
namespace CommentGrade

/-- The place of a position in the order of reading: by lines, on a line by columns. -/
def Position.key (p : Position) : Nat ×ₗ Nat := toLex (p.line, p.column)

namespace Text

/-- The first line starts at the start of the text, the next one behind the first line feed from there on, and so on. -/
inductive LineStart (cs : List Char) : Nat → Nat → Prop
  | first : LineStart cs 0 0
  | next {l start feed : Nat} (h : LineStart cs l start) (hle : start ≤ feed) (hfeed : cs[feed]? = some '\n')
    (hline : ∀ k, start ≤ k → k < feed → cs[k]? ≠ some '\n') : LineStart cs (l + 1) (feed + 1)

variable {cs : List Char} {i j : Nat}

/-- A line starts as many characters before an offset as the column says, and none of them is a line feed. -/
theorem exists_lineStart_of_column (hi : i ≤ cs.length) : ∃ start, LineStart cs (lineAt cs i) start ∧
    i = start + columnAt cs i ∧ ∀ k, start ≤ k → k < i → cs[k]? ≠ some '\n' := by
  induction i with
  | zero => exact ⟨0, .first, rfl, fun k _ hk => absurd hk (Nat.not_lt_zero k)⟩
  | succ i ih =>
    obtain ⟨start, hstart, hcolumn, hline⟩ := ih (Nat.le_of_succ_le hi)
    have hchar : cs[i]? = some cs[i] := List.getElem?_eq_getElem hi
    rw [lineAt_succ hchar, columnAt_succ hchar]
    by_cases hfeed : cs[i] = '\n'
    · rw [if_pos hfeed, if_pos hfeed]
      have hnext : LineStart cs (lineAt cs i + 1) (i + 1) := hstart.next (by omega) (by rw [hchar, hfeed]) hline
      exact ⟨i + 1, hnext, rfl, fun k hk hlt => absurd hlt (Nat.not_lt.mpr hk)⟩
    · rw [if_neg hfeed, if_neg hfeed]
      refine ⟨start, hstart, by omega, fun k hk hlt => ?_⟩
      rcases Nat.lt_succ_iff_lt_or_eq.mp hlt with hbefore | rfl
      · exact hline k hk hbefore
      · rw [hchar, Ne, Option.some.injEq]
        exact hfeed

theorem key_lt_succ (hi : i < cs.length) : (positionAt cs i).key < (positionAt cs (i + 1 : Nat)).key := by
  have hchar : cs[i]? = some cs[i] := List.getElem?_eq_getElem hi
  rw [positionAt_of_le hi.le, positionAt_of_le hi, lineAt_succ hchar, columnAt_succ hchar]
  by_cases hfeed : cs[i] = '\n'
  · rw [if_pos hfeed, if_pos hfeed]
    exact Prod.Lex.toLex_lt_toLex.mpr (.inl (Nat.lt_succ_self _))
  · rw [if_neg hfeed, if_neg hfeed]
    exact Prod.Lex.toLex_lt_toLex.mpr (.inr ⟨rfl, Nat.lt_succ_self _⟩)

theorem key_lt (hij : i < j) (hj : j ≤ cs.length) : (positionAt cs i).key < (positionAt cs j).key := by
  induction j with
  | zero => exact absurd hij (Nat.not_lt_zero i)
  | succ j ih =>
    rcases Nat.lt_succ_iff_lt_or_eq.mp hij with hbefore | rfl
    · exact (ih hbefore (Nat.le_of_succ_le hj)).trans (key_lt_succ hj)
    · exact key_lt_succ hj

theorem key_lt_iff (hi : i ≤ cs.length) (hj : j ≤ cs.length) :
    (positionAt cs i).key < (positionAt cs j).key ↔ i < j := by
  refine ⟨fun h => ?_, fun h => key_lt h hj⟩
  by_contra hle
  rcases Nat.lt_or_eq_of_le (Nat.not_lt.mp hle) with hlt | rfl
  · exact lt_asymm h (key_lt hlt hi)
  · exact lt_irrefl _ h

theorem clamp_le (cs : List Char) (offset : Int) : clamp cs offset ≤ cs.length := Nat.min_le_right _ _

/-- An offset has the position of the nearest one in the text. -/
theorem positionAt_eq_clamp (cs : List Char) (offset : Int) : positionAt cs offset = positionAt cs (clamp cs offset) := by
  rw [positionAt_of_le (clamp_le cs offset), positionAt]
  split_ifs with hneg
  · have hclamp : clamp cs offset = 0 := by rw [clamp, Int.toNat_of_nonpos hneg, Nat.zero_min]
    rw [hclamp]
    rfl
  · rfl

theorem clamp_eq (cs : List Char) (offset : Int) : (clamp cs offset : Int) = max 0 (min offset cs.length) := by
  rw [clamp]
  omega

end Text

namespace Document

/-- Positions are in the order of the offsets of a text. An offset is as many characters behind the start of its line as
its column says, with no line feed on the way. Outside the text, offsets have the positions of its ends, and the line of
an offset is that of its position. -/
theorem positionAt_embeds (d : Document) :
    (∀ i j : Nat, i ≤ d.text.length → j ≤ d.text.length →
      ((d.positionAt i).key < (d.positionAt j).key ↔ i < j)) ∧
    (∀ i : Nat, i ≤ d.text.length → ∃ start, Text.LineStart d.text.toList (d.positionAt i).line start ∧
      i = start + (d.positionAt i).column ∧ ∀ k, start ≤ k → k < i → d.text.toList[k]? ≠ some '\n') ∧
    (∀ i : Int, d.positionAt i = d.positionAt (max 0 (min i d.text.length))) ∧
    ∀ i : Int, d.lineOf i = (d.positionAt i).line := by
  rw [← String.length_toList]
  refine ⟨fun i j hi hj => Text.key_lt_iff hi hj, fun i hi => ?_, fun i => ?_, fun i => ?_⟩
  · rw [positionAt, Text.positionAt_of_le hi]
    exact Text.exists_lineStart_of_column hi
  · rw [← Text.clamp_eq]
    exact Text.positionAt_eq_clamp _ i
  · rw [positionAt, Text.positionAt_eq_clamp, Text.positionAt_of_le (Text.clamp_le _ i)]
    rfl

/-- The end of one line and the start of the next but one, an empty line between them. -/
theorem positionAt_embeds_emptyLine :
    let d : Document := { text := "ab\ncd\n\nef" }
    5 ≤ d.text.length ∧ 7 ≤ d.text.length ∧ d.positionAt 5 = ⟨1, 2⟩ ∧ d.positionAt 7 = ⟨3, 0⟩ ∧
      ((d.positionAt (5 : Nat)).key < (d.positionAt (7 : Nat)).key ↔ 5 < 7) ∧
      ∃ start, Text.LineStart d.text.toList (d.positionAt (7 : Nat)).line start ∧
        7 = start + (d.positionAt (7 : Nat)).column := by
  intro d
  have hfive : 5 ≤ d.text.length := by decide
  have hseven : 7 ≤ d.text.length := by decide
  obtain ⟨horder, hstart, -, -⟩ := positionAt_embeds d
  obtain ⟨start, hline, hcolumn, -⟩ := hstart 7 hseven
  exact ⟨hfive, hseven, by decide, by decide, horder 5 7 hfive hseven, start, hline, hcolumn⟩

end Document

end CommentGrade
