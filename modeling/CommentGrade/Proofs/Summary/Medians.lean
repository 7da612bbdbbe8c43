import CommentGrade.Summary.Corpus
import Mathlib.Logic.Basic
import Mathlib.Tactic.Choose

/-!
# Medians and summaries are defined

The median of a part of a list that is not empty reads only that part: its middle item, or the mean of the two in the
middle. To say this, the items are read by a function that is not known outside of the part. The halves of at least two
values are not empty, so there is a box plot of any values, and a summary of any comments.
-/
namespace CommentGrade

section Except

variable {ε A B : Type}

theorem mapM_eq_ok {f : A → Except ε B} {g : A → B} {l : List A} (h : ∀ a ∈ l, f a = .ok (g a)) :
    l.mapM f = .ok (l.map g) := by
  induction l with
  | nil => rfl
  | cons a l ih =>
    rw [List.mapM_cons, h a List.mem_cons_self, ih fun b hb => h b (List.mem_cons_of_mem a hb)]
    rfl

end Except

theorem Readability.length_ascending_pos {A : Type} [LE A] [DecidableLE A] {xs : List A} (hne : xs ≠ []) :
    0 < (ascending xs).length := by
  rw [ascending, List.length_mergeSort]
  exact List.length_pos_iff.mpr hne

namespace Fence

variable {α : Type} {xs : List α} {first last : Nat}

theorem item_ofNat {i : Nat} (h : i < xs.length) : item xs i = .ok xs[i] := by
  have hi : ¬ (i : Int) < 0 := by omega
  simp only [item, hi, if_false, Int.toNat_natCast, List.getElem?_eq_getElem h]

theorem half_eq (h : first < last) : ((last : Int) - first).fdiv 2 = ((last - first) / 2 : Nat) ∧
    ((last : Int) - first).fmod 2 = ((last - first) % 2 : Nat) := by
  rw [Int.fdiv_eq_ediv_of_nonneg _ (by decide), Int.fmod_eq_emod_of_nonneg _ (by decide)]
  omega

section Median

variable [Add α] [Div α] [OfScientific α]

/-- The median of the items from index `first` up to, not including, index `last`, where an item is what is read at its
index. -/
def medianReading (read : Int → Except OutOfRange α) (first last : Int) : Except OutOfRange α := do
  let count := last - first
  let half := count.fdiv 2
  if count.fmod 2 = 1 then read (first + half)
  else
    let a ← read (first + half - 1)
    let b ← read (first + half)
    return (a + b) / 2.0

/-- At the indices of a part of a list, its items are read. What is read at other indices is left open. -/
def ReadsPart (read : Int → Except OutOfRange α) (xs : List α) (first last : Nat) : Prop :=
  ∀ (i : Nat) (h : i < xs.length), first ≤ i → i < last → read i = .ok xs[i]

theorem medianOfRange_eq_reading (xs : List α) (first last : Int) :
    medianOfRange xs first last = medianReading (item xs) first last := rfl

omit [Add α] [Div α] [OfScientific α] in
theorem readsPart_item (xs : List α) (first last : Nat) : ReadsPart (item xs) xs first last :=
  fun _ h _ _ => item_ofNat h

variable {read : Int → Except OutOfRange α}

theorem medianReading_of_odd (hread : ReadsPart read xs first last) (h : first < last) (hlast : last ≤ xs.length)
    (hodd : (last - first) % 2 = 1) : medianReading read first last = .ok xs[first + (last - first) / 2] := by
  obtain ⟨hhalf, hmod⟩ := half_eq h
  have hindex : (first : Int) + ((last - first) / 2 : Nat) = (first + (last - first) / 2 : Nat) := by omega
  simp only [medianReading, hhalf, hmod, hodd, Int.natCast_one, if_true, hindex]
  exact hread _ _ (by omega) (by omega)

theorem medianReading_of_even (hread : ReadsPart read xs first last) (h : first < last) (hlast : last ≤ xs.length)
    (heven : (last - first) % 2 = 0) : medianReading read first last =
      .ok ((xs[first + (last - first) / 2 - 1] + xs[first + (last - first) / 2]) / 2.0) := by
  obtain ⟨hhalf, hmod⟩ := half_eq h
  have hindex : (first : Int) + ((last - first) / 2 : Nat) = (first + (last - first) / 2 : Nat) := by omega
  have hbefore : ((first + (last - first) / 2 : Nat) : Int) - 1 = (first + (last - first) / 2 - 1 : Nat) := by omega
  have hne : ¬ ((0 : Nat) : Int) = 1 := by decide
  simp only [medianReading, hhalf, hmod, heven, hne, if_false, hindex, hbefore]
  rw [hread (first + (last - first) / 2 - 1) (by omega) (by omega) (by omega),
    hread (first + (last - first) / 2) (by omega) (by omega) (by omega)]
  rfl

theorem exists_medianReading (hread : ReadsPart read xs first last) (h : first < last) (hlast : last ≤ xs.length) :
    ∃ m, medianReading read first last = .ok m := by
  rcases Nat.mod_two_eq_zero_or_one (last - first) with heven | hodd
  · exact ⟨_, medianReading_of_even hread h hlast heven⟩
  · exact ⟨_, medianReading_of_odd hread h hlast hodd⟩

theorem exists_medianOfRange (h : first < last) (hlast : last ≤ xs.length) :
    ∃ m, medianOfRange xs first last = .ok m := by
  rw [medianOfRange_eq_reading]
  exact exists_medianReading (readsPart_item xs first last) h hlast

end Median

section Values

variable [Add α] [Sub α] [Mul α] [Div α] [OfScientific α] [LE α] [DecidableLE α]

/-- The box plot of values, where an item of the ascending list is what is read at its index. -/
def ofValuesReading? (read : List α → Int → Except OutOfRange α) (xs : List α) :
    Except OutOfRange (Option (Fence α)) :=
  match Readability.ascending xs with
  | [] => .ok none
  | [x] => .ok (some ⟨x, x, x, x, x⟩)
  | sorted => do
    let n : Nat := sorted.length
    let median ← medianReading (read sorted) 0 n
    let lower ← medianReading (read sorted) 0 (n / 2 : Nat)
    let upper ← medianReading (read sorted) (n / 2 + n % 2 : Nat) n
    return some (around lower upper median)

theorem ofValues?_eq_reading (xs : List α) : ofValues? xs = ofValuesReading? item xs := rfl

/-- At the indices of a list, its items are read. What is read at other indices, negative ones included, is left open. -/
def ReadsItems (read : List α → Int → Except OutOfRange α) : Prop :=
  ∀ xs : List α, ReadsPart (read xs) xs 0 xs.length

omit [Add α] [Sub α] [Mul α] [Div α] [OfScientific α] [LE α] [DecidableLE α] in
theorem readsItems_item : ReadsItems (item : List α → Int → Except OutOfRange α) :=
  fun xs => readsPart_item xs 0 xs.length

variable {read : List α → Int → Except OutOfRange α}

omit [Add α] [Sub α] [Mul α] [Div α] [OfScientific α] [LE α] [DecidableLE α] in
theorem ReadsItems.part (hread : ReadsItems read) (xs : List α) (first last : Nat) :
    ReadsPart (read xs) xs first last :=
  fun i h _ _ => hread xs i h (Nat.zero_le i) h

/-- The box plot of a single value has that value everywhere. From two values on, neither half is empty, and the box
plot stands around the medians of both. -/
theorem ofValuesReading?_cases (hread : ReadsItems read) {xs : List α} (hne : xs ≠ []) :
    (∃ x, Readability.ascending xs = [x] ∧ ofValuesReading? read xs = .ok (some ⟨x, x, x, x, x⟩)) ∨
    ∃ (sorted : List α) (median lower upper : α), Readability.ascending xs = sorted ∧ 2 ≤ sorted.length ∧
      medianReading (read sorted) 0 sorted.length = .ok median ∧
      medianReading (read sorted) 0 (sorted.length / 2 : Nat) = .ok lower ∧
      medianReading (read sorted) (sorted.length / 2 + sorted.length % 2 : Nat) sorted.length = .ok upper ∧
      ofValuesReading? read xs = .ok (some (around lower upper median)) := by
  have hlength : (Readability.ascending xs).length = xs.length := List.length_mergeSort xs
  unfold ofValuesReading?
  generalize Readability.ascending xs = sorted at hlength ⊢
  match sorted, hlength with
  | [], hlength => exact absurd (List.length_eq_zero_iff.mp hlength.symm) hne
  | [x], _ => exact .inl ⟨x, rfl, rfl⟩
  | a :: b :: rest, _ =>
    let sorted := a :: b :: rest
    have htwo : 2 ≤ sorted.length := by simp [sorted]
    obtain ⟨median, hmedian⟩ := exists_medianReading (hread.part sorted 0 sorted.length)
      (Nat.zero_lt_of_lt htwo) (Nat.le_refl _)
    obtain ⟨lower, hlower⟩ := exists_medianReading (hread.part sorted 0 (sorted.length / 2))
      (Nat.div_pos htwo (by decide)) (Nat.div_le_self _ _)
    obtain ⟨upper, hupper⟩ := exists_medianReading
      (hread.part sorted (sorted.length / 2 + sorted.length % 2) sorted.length) (by omega) (Nat.le_refl _)
    refine .inr ⟨sorted, median, lower, upper, rfl, htwo, hmedian, hlower, hupper, ?_⟩
    simp only [sorted, Int.natCast_zero] at hmedian hlower hupper
    simp only [hmedian, hlower, hupper]
    rfl

theorem exists_fence {xs : List α} (hne : xs ≠ []) : ∃ fence, ofValues? xs = .ok (some fence) := by
  rw [ofValues?_eq_reading]
  rcases ofValuesReading?_cases readsItems_item hne with ⟨x, -, h⟩ | ⟨_, _, _, _, -, -, -, -, -, h⟩
  · exact ⟨_, h⟩
  · exact ⟨_, h⟩

end Values

end Fence

namespace Summary

open Readability

variable {α : Type} [Add α] [Sub α] [Mul α] [Div α] [OfScientific α] [NatCast α] [LE α] [DecidableLE α]

theorem column_of_ne_nil {stats : List (Stats α)} (hne : stats ≠ []) (t : MetricTable) (metric : String) :
    ∃ fence, Fence.ofValues? (stats.map (·.value t metric)) = .ok (some fence) ∧
      column stats t metric = .ok ⟨metric, some fence, some (mean (stats.map (·.value t metric)))⟩ := by
  obtain ⟨fence, hfence⟩ : ∃ fence, Fence.ofValues? (stats.map (·.value t metric)) = .ok (some fence) :=
    Fence.exists_fence (mt List.map_eq_nil_iff.mp hne)
  refine ⟨fence, hfence, ?_⟩
  rw [column, hfence]
  rfl

/-- The summary of comments that there is at least one of: all columns, and the median of the grades. -/
theorem exists_ofComments {stats : List (Stats α)} (hne : stats ≠ []) (kinds : List CommentKind) :
    ∃ (c : MetricTable → String → Column α) (median : α),
      (∀ t metric, column stats t metric = .ok (c t metric)) ∧
      Fence.medianOfRange (ascending (stats.map Stats.textMedian)) 0
        (ascending (stats.map Stats.textMedian)).length = .ok median ∧
      ofComments stats kinds = .ok ⟨stats.length, kindShares kinds,
        MetricTable.all.map fun t => (t, t.metrics.map (c t)), some median⟩ := by
  have hpos : 0 < (ascending (stats.map Stats.textMedian)).length :=
    length_ascending_pos (mt List.map_eq_nil_iff.mp hne)
  have hcolumn : ∀ t metric, ∃ c, column stats t metric = .ok c := fun t metric =>
    (column_of_ne_nil hne t metric).imp' _ fun _ h => h.2
  choose c hc using hcolumn
  obtain ⟨median, hmedian⟩ := Fence.exists_medianOfRange hpos (Nat.le_refl _)
  have htables : ∀ t : MetricTable, t.metrics.mapM (column stats t) = .ok (t.metrics.map (c t)) := fun t =>
    mapM_eq_ok fun metric _ => hc t metric
  have hcolumns : (MetricTable.all.mapM fun t => do
      let cs ← t.metrics.mapM (column stats t)
      return (t, cs)) = .ok (MetricTable.all.map fun t => (t, t.metrics.map (c t))) :=
    mapM_eq_ok fun t _ => by rw [htables]; rfl
  refine ⟨c, median, hc, hmedian, ?_⟩
  rw [ofComments, hcolumns]
  simp only [Int.natCast_zero] at hmedian
  simp only [bind, Except.bind, hmedian, pure, Except.pure]

/-- The summary of comments is found in one way, if there is one at least. -/
theorem make_of_ne_nil {stats : List (Stats α)} {kinds : List CommentKind} (hne : stats ≠ [])
    (h : stats.length = kinds.length) : make stats kinds = (ofComments stats kinds).mapError .index := by
  rw [make, if_neg (not_not.mpr h), if_neg (mt List.isEmpty_iff.mp hne)]

theorem exists_make {stats : List (Stats α)} {kinds : List CommentKind} (h : stats.length = kinds.length) :
    ∃ summary, make stats kinds = .ok summary := by
  by_cases hne : stats = []
  · subst hne
    exact ⟨.empty, by rw [make, if_neg (not_not.mpr h), if_pos List.isEmpty_nil]⟩
  · obtain ⟨_, _, -, -, hsummary⟩ := exists_ofComments hne kinds
    exact ⟨_, by rw [make_of_ne_nil hne h, hsummary]; rfl⟩

end Summary

end CommentGrade
