import CommentGrade.Proofs.Readability.Tables
import CommentGrade.Proofs.Summary.Medians
import Mathlib.Algebra.BigOperators.Group.List.Lemmas
import Mathlib.Algebra.BigOperators.Ring.Finset
import Mathlib.Algebra.Order.Field.Rat
import Mathlib.Data.List.Dedup
import Mathlib.Tactic.FieldSimp

/-!
# What a summary holds

The summary of comments has a column for each metric of each table, which looks at the values of all comments. In exact
arithmetic the shares of the kinds are parts of a hundred, and the grade is the median of the grades of the comments.
-/
namespace CommentGrade

open Readability

section Kinds

variable {A : Type} [DecidableEq A]

theorem nodup_eraseDups : ∀ l : List A, l.eraseDups.Nodup
  | [] => List.nodup_nil
  | a :: l => by
    rw [List.eraseDups_cons, List.nodup_cons]
    refine ⟨?_, nodup_eraseDups _⟩
    rw [List.mem_eraseDups, List.mem_filter]
    simp
termination_by l => l.length
decreasing_by exact Nat.lt_succ_of_le (List.length_filter_le _ _)

theorem eraseDups_perm_dedup (l : List A) : l.eraseDups.Perm l.dedup := by
  rw [List.perm_ext_iff_of_nodup (nodup_eraseDups l) (List.nodup_dedup l)]
  intro a
  rw [List.mem_eraseDups, List.mem_dedup]

theorem sum_count_eraseDups (l : List A) : (l.eraseDups.map l.count).sum = l.length := by
  rw [((eraseDups_perm_dedup l).map _).sum_eq]
  exact List.sum_map_count_dedup_eq_length l

end Kinds

/-- A column about these values: their box plot and their mean. -/
structure Column.About (c : Column Rat) (metric : String) (values : List Rat) : Prop where
  metric : c.metric = metric
  fence : ∃ fence, Fence.ofValues? values = .ok (some fence) ∧ c.fence = some fence
  mean : c.mean = some (values.sum / values.length)

namespace Fence

/-- The items in the middle of a part of a list have this mean; they are one item if their number is odd. -/
def IsMiddle (m : Rat) (xs : List Rat) (first last : Nat) : Prop :=
  ∃ a b, xs[first + (last - first - 1) / 2]? = some a ∧ xs[first + (last - first) / 2]? = some b ∧ m = (a + b) / 2

theorem exists_isMiddle {read : Int → Except OutOfRange Rat} {xs : List Rat} {first last : Nat}
    (hread : ReadsPart read xs first last) (h : first < last) (hlast : last ≤ xs.length) :
    ∃ m, medianReading read first last = .ok m ∧ IsMiddle m xs first last := by
  have hitem : xs[first + (last - first) / 2]? = some xs[first + (last - first) / 2] :=
    List.getElem?_eq_getElem (by omega)
  rcases Nat.mod_two_eq_zero_or_one (last - first) with heven | hodd
  · have htwo : (2.0 : Rat) = 2 := by norm_num
    have hbefore : xs[first + (last - first) / 2 - 1]? = some xs[first + (last - first) / 2 - 1] :=
      List.getElem?_eq_getElem (by omega)
    have hindex : first + (last - first - 1) / 2 = first + (last - first) / 2 - 1 := by omega
    exact ⟨_, medianReading_of_even hread h hlast heven, _, _, by rwa [hindex], hitem, by rw [htwo]⟩
  · have hindex : first + (last - first - 1) / 2 = first + (last - first) / 2 := by omega
    exact ⟨_, medianReading_of_odd hread h hlast hodd, _, _, by rwa [hindex], hitem, (add_self_div_two _).symm⟩

end Fence

namespace Summary

section Shares

variable (kinds : List CommentKind)

theorem kindShares_eq : (kindShares kinds : List (CommentKind × Rat)) =
    kinds.eraseDups.map fun k => (k, 100 * (kinds.count k : Rat) / kinds.length) := by
  have hhundred : (100.0 : Rat) = 100 := by norm_num
  refine List.map_congr_left fun k _ => ?_
  rw [hhundred, Prod.mk.injEq]
  exact ⟨rfl, by ring⟩

theorem kinds_kindShares : (kindShares kinds : List (CommentKind × Rat)).map (·.1) = kinds.eraseDups := by
  rw [kindShares_eq, List.map_map]
  exact List.map_id _

/-- The shares of the kinds that occur are parts of a hundred. -/
theorem sum_kindShares (hne : kinds ≠ []) : ((kindShares kinds : List (CommentKind × Rat)).map (·.2)).sum = 100 := by
  have hlength : (kinds.length : Rat) ≠ 0 := by
    rw [Nat.cast_ne_zero]
    exact fun h => hne (List.length_eq_zero_iff.mp h)
  have hsum : ((kinds.eraseDups.map kinds.count).sum : Rat) = kinds.length := by rw [sum_count_eraseDups]
  calc ((kindShares kinds : List (CommentKind × Rat)).map (·.2)).sum
      = (kinds.eraseDups.map fun k => 100 / (kinds.length : Rat) * kinds.count k).sum := by
        rw [kindShares_eq, List.map_map]
        congr 1
        refine List.map_congr_left fun k _ => ?_
        simp only [Function.comp]
        ring
    _ = 100 / kinds.length * ((kinds.eraseDups.map kinds.count).sum : Rat) := by
        rw [List.sum_map_mul_left, Nat.cast_list_sum, List.map_map]
        rfl
    _ = 100 := by
        rw [hsum]
        field_simp

end Shares

section Median

/-- The items in the middle of a list in ascending order have this mean; they are one item if their number is odd. -/
def IsMedian (median : Rat) (xs : List Rat) : Prop :=
  ∃ (sorted : List Rat) (a b : Rat), sorted.Perm xs ∧ sorted.SortedLE ∧
    sorted[(xs.length - 1) / 2]? = some a ∧ sorted[xs.length / 2]? = some b ∧ median = (a + b) / 2

theorem isMedian_of_isMiddle {median : Rat} {sorted xs : List Rat} (h : Fence.IsMiddle median sorted 0 sorted.length)
    (hperm : sorted.Perm xs) (hsorted : sorted.SortedLE) : IsMedian median xs := by
  obtain ⟨a, b, ha, hb, hmedian⟩ := h
  rw [hperm.length_eq, Nat.sub_zero, Nat.zero_add] at ha hb
  exact ⟨sorted, a, b, hperm, hsorted, ha, hb, hmedian⟩

theorem exists_isMedian {xs : List Rat} (hne : xs ≠ []) :
    ∃ median, Fence.medianOfRange (ascending xs) 0 (ascending xs).length = .ok median ∧ IsMedian median xs := by
  have hpos : 0 < (ascending xs).length := length_ascending_pos hne
  obtain ⟨median, hmedian, hmiddle⟩ := Fence.exists_isMiddle (Fence.readsPart_item _ _ _) hpos (Nat.le_refl _)
  exact ⟨median, hmedian, isMedian_of_isMiddle hmiddle (ascending_perm xs) (sortedLE_ascending xs)⟩

end Median

section Columns

theorem mean_eq (xs : List Rat) : mean xs = xs.sum / xs.length := by
  have hzero : (0.0 : Rat) = 0 := by norm_num
  rw [mean, hzero, List.sum_eq_foldl]

theorem about_of_column {stats : List (Stats Rat)} (hne : stats ≠ []) {t : MetricTable} {metric : String}
    {c : Column Rat} (h : column stats t metric = .ok c) : c.About metric (stats.map (·.value t metric)) := by
  obtain ⟨fence, hfence, hcolumn⟩ := column_of_ne_nil hne t metric
  obtain rfl := Except.ok.inj (hcolumn.symm.trans h)
  exact ⟨rfl, ⟨fence, hfence, rfl⟩, congrArg some (mean_eq _)⟩

/-- What the summary of comments with these metrics and kinds holds. -/
structure About (s : Summary Rat) (stats : List (Stats Rat)) (kinds : List CommentKind) : Prop where
  total : s.total = stats.length
  kinds : s.kinds = kindShares kinds
  columns : ∃ c : MetricTable → String → Column Rat,
    (∀ t metric, (c t metric).About metric (stats.map (·.value t metric))) ∧
      s.columns = MetricTable.all.map fun t => (t, t.metrics.map (c t))
  median : ∃ median, IsMedian median (stats.map Stats.textMedian) ∧ s.medianGrade = some median

theorem ofComments_about {stats : List (Stats Rat)} {kinds : List CommentKind} (hne : stats ≠ [])
    {s : Summary Rat} (h : ofComments stats kinds = .ok s) : s.About stats kinds := by
  obtain ⟨c, median, hc, hmedian, hsummary⟩ := exists_ofComments hne kinds
  obtain ⟨median', hmedian', hisMedian⟩ := exists_isMedian (mt (List.map_eq_nil_iff (f := Stats.textMedian)).mp hne)
  obtain rfl := Except.ok.inj (hmedian.symm.trans hmedian')
  obtain rfl := Except.ok.inj (hsummary.symm.trans h)
  exact ⟨rfl, rfl, ⟨c, fun t metric => about_of_column hne (hc t metric), rfl⟩, median, hisMedian, rfl⟩

/-- The summary of no comments is the empty one, any other is about the comments. -/
theorem make_cases {stats : List (Stats Rat)} {kinds : List CommentKind} (hlength : stats.length = kinds.length)
    {s : Summary Rat} (h : make stats kinds = .ok s) :
    (stats = [] ∧ s = .empty) ∨ (stats ≠ [] ∧ s.About stats kinds) := by
  by_cases hne : stats = []
  · subst hne
    rw [make, if_neg (not_not.mpr hlength), if_pos List.isEmpty_nil] at h
    exact .inl ⟨rfl, (Except.ok.inj h).symm⟩
  · obtain ⟨_, _, -, -, hcomments⟩ := exists_ofComments hne kinds
    rw [make_of_ne_nil hne hlength, hcomments] at h
    obtain rfl := Except.ok.inj h
    exact .inr ⟨hne, ofComments_about hne hcomments⟩

end Columns

end Summary

end CommentGrade
