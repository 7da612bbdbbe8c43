import CommentGrade.Proofs.Text.Lines
import CommentGrade.Report.Text
import Mathlib.Tactic.SplitIfs

/-!
# Comments on one line

A comment is shown by its words with single blanks between them. So what is shown stays on its line, also where it is
cut off, and it is never longer than it may be. The place that is shown with it is one of the text, not behind the
start of the comment.
-/
namespace CommentGrade.Report

open Text

/-- A row of words: they are not empty, and no white space is in them. -/
def AreWords (ws : List (List Char)) : Prop := ∀ w ∈ ws, w ≠ [] ∧ ∀ c ∈ w, isBlank c = false

/-- A text of words with single blanks between them. -/
def IsFlat (cs : List Char) : Prop := ∃ ws, AreWords ws ∧ cs = [' '].intercalate ws

theorem areWords_words (cs : List Char) : AreWords (words cs) := by
  intro w hw
  obtain ⟨hmem, hne⟩ := List.mem_filter.mp hw
  exact ⟨by simpa using hne, not_of_mem_splitOnP hmem⟩

theorem intercalate_cons {w : List Char} {ws : List (List Char)} (h : ws ≠ []) :
    [' '].intercalate (w :: ws) = w ++ ' ' :: [' '].intercalate ws := by
  obtain ⟨v, vs, rfl⟩ := List.exists_cons_of_ne_nil h
  rw [List.intercalate_cons_cons, List.append_assoc]
  rfl

/-- A row of words that is cut off and closed with dots is a row of words. -/
theorem exists_words_cut {ws : List (List Char)} (hws : AreWords ws) (n : Nat) {dots : List Char}
    (hdots : AreWords [dots]) :
    ∃ vs, vs ≠ [] ∧ AreWords vs ∧ ([' '].intercalate ws).take n ++ dots = [' '].intercalate vs := by
  have hdots' := hdots dots List.mem_cons_self
  have hone {w : List Char} (hw : ∀ c ∈ w, isBlank c = false) (n : Nat) :
      ∃ vs, vs ≠ [] ∧ AreWords vs ∧ w.take n ++ dots = [' '].intercalate vs := by
    refine ⟨[w.take n ++ dots], List.cons_ne_nil _ _, ?_, by simp⟩
    intro v hv
    obtain rfl := List.mem_singleton.mp hv
    refine ⟨List.append_ne_nil_of_right_ne_nil _ hdots'.1, fun c hc => ?_⟩
    rcases List.mem_append.mp hc with hc | hc
    · exact hw c (List.mem_of_mem_take hc)
    · exact hdots'.2 c hc
  induction ws generalizing n with
  | nil => exact ⟨[dots], List.cons_ne_nil _ _, hdots, by simp⟩
  | cons w ws ih =>
    have hw := hws w List.mem_cons_self
    have hrest : AreWords ws := fun v hv => hws v (List.mem_cons_of_mem w hv)
    by_cases hnil : ws = []
    · subst hnil
      simpa using hone hw.2 n
    · rw [intercalate_cons hnil]
      by_cases hn : n ≤ w.length
      · rw [List.take_append_of_le_length hn]
        exact hone hw.2 n
      · obtain ⟨m, rfl⟩ : ∃ m, n = w.length + (m + 1) := ⟨n - w.length - 1, by omega⟩
        obtain ⟨vs, hne, hvs, heq⟩ := ih hrest m
        refine ⟨w :: vs, List.cons_ne_nil _ _, List.forall_mem_cons.mpr ⟨hw, hvs⟩, ?_⟩
        rw [intercalate_cons hne, ← heq, List.take_length_add_append, List.take_succ_cons, List.append_assoc]
        rfl

theorem isFlat_snippet (cs : List Char) : IsFlat (snippet cs) := by
  unfold snippet
  dsimp only
  split_ifs
  · have hdots : AreWords [['.', '.', '.']] := by
      intro w hw
      obtain rfl := List.mem_singleton.mp hw
      refine ⟨List.cons_ne_nil _ _, fun c hc => ?_⟩
      obtain rfl : c = '.' := List.eq_of_mem_replicate (n := 3) hc
      decide
    obtain ⟨vs, -, hvs, heq⟩ := exists_words_cut (areWords_words cs) (snippetLength - 3) hdots
    exact ⟨vs, hvs, heq⟩
  · exact ⟨_, areWords_words cs, rfl⟩

theorem IsFlat.eq_blank {cs : List Char} (h : IsFlat cs) : ∀ c ∈ cs, isBlank c = true → c = ' ' := by
  obtain ⟨ws, hws, rfl⟩ := h
  induction ws with
  | nil => nofun
  | cons w ws ih =>
    have hfirst : ∀ c ∈ w, isBlank c = true → c = ' ' := fun c hc hblank =>
      absurd hblank (Bool.eq_false_iff.mp ((hws w List.mem_cons_self).2 c hc))
    have hrest := ih fun v hv => hws v (List.mem_cons_of_mem w hv)
    by_cases hnil : ws = []
    · subst hnil
      simpa using hfirst
    · rw [intercalate_cons hnil]
      intro c hc hblank
      rcases List.mem_append.mp hc with hc | hc
      · exact hfirst c hc hblank
      · rcases List.mem_cons.mp hc with rfl | hc
        · rfl
        · exact hrest c hc hblank

theorem length_snippet_le (cs : List Char) : (snippet cs).length ≤ snippetLength := by
  unfold snippet
  dsimp only
  split_ifs with h
  · rw [List.length_append, List.length_take, Nat.min_eq_left (by omega)]
    decide
  · exact Nat.le_of_not_lt h

end CommentGrade.Report
