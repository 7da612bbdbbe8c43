import CommentGrade.Proofs.Summary.Contents

/-!
# Quartiles

In exact arithmetic a box plot is a function of the values in ascending order: its median and its quartiles stand in the
middle of them and of their two halves. So it is ordered, it lies between the least value and the greatest one, and it
does not depend on the order of the values. No index is read that the ascending list does not have.
-/
namespace CommentGrade

open Readability

theorem Readability.ascending_eq_of_perm {xs ys : List Rat} (h : xs.Perm ys) : ascending xs = ascending ys := by
  have hperm : (ascending xs).Perm (ascending ys) := ((ascending_perm xs).trans h).trans (ascending_perm ys).symm
  exact hperm.eq_of_sortedLE (sortedLE_ascending xs) (sortedLE_ascending ys)

theorem Fence.ofValues?_eq_of_perm {xs ys : List Rat} (h : xs.Perm ys) : ofValues? xs = ofValues? ys := by
  rw [ofValues?, ofValues?, ascending_eq_of_perm h]

/-- Values are cut in two parts if nothing in the first part is above anything in the second. -/
def IsCut (low high xs : List Rat) : Prop := (low ++ high).Perm xs ∧ ∀ a ∈ low, ∀ b ∈ high, a ≤ b

theorem isCut_take_drop {sorted xs : List Rat} (hsorted : sorted.SortedLE) (hperm : sorted.Perm xs) (i : Nat) :
    IsCut (sorted.take i) (sorted.drop i) xs := by
  have hpairs : (sorted.take i ++ sorted.drop i).Pairwise (· ≤ ·) := by
    rw [List.take_append_drop]
    exact hsorted.pairwise
  refine ⟨?_, (List.pairwise_append.mp hpairs).2.2⟩
  rwa [List.take_append_drop]

namespace Fence

section Middle

variable {m m' : Rat} {xs : List Rat} {first last first' last' : Nat}

theorem IsMiddle.unique (h : IsMiddle m xs first last) (h' : IsMiddle m' xs first last) : m = m' := by
  obtain ⟨a, b, ha, hb, rfl⟩ := h
  obtain ⟨a', b', ha', hb', rfl⟩ := h'
  rw [ha, Option.some.injEq] at ha'
  rw [hb, Option.some.injEq] at hb'
  rw [ha', hb']

theorem isMiddle_of_medianReading {read : Int → Except OutOfRange Rat} (hread : ReadsPart read xs first last)
    (hlt : first < last) (hlast : last ≤ xs.length) (h : medianReading read first last = .ok m) :
    IsMiddle m xs first last := by
  obtain ⟨_, hmedian, hmiddle⟩ := exists_isMiddle hread hlt hlast
  obtain rfl := Except.ok.inj (h.symm.trans hmedian)
  exact hmiddle

theorem isMiddle_single (xs : List Rat) {i : Nat} (h : i < xs.length) : IsMiddle xs[i] xs i (i + 1) := by
  have hitem : xs[i]? = some xs[i] := List.getElem?_eq_getElem h
  have hfirst : i + (i + 1 - i - 1) / 2 = i := by omega
  have hsecond : i + (i + 1 - i) / 2 = i := by omega
  refine ⟨xs[i], xs[i], by rwa [hfirst], by rwa [hsecond], (add_self_div_two _).symm⟩

theorem getElem?_part {i : Nat} (h : first + i < last) : ((xs.take last).drop first)[i]? = xs[first + i]? := by
  rw [List.getElem?_drop, List.getElem?_take_of_lt h]

theorem length_take_drop (hlast : last ≤ xs.length) : ((xs.take last).drop first).length = last - first := by
  rw [List.length_drop, List.length_take, Nat.min_eq_left hlast]

theorem sortedLE_take_drop (hsorted : xs.SortedLE) (first last : Nat) : ((xs.take last).drop first).SortedLE := by
  have hsub : ((xs.take last).drop first).Sublist xs := (List.drop_sublist first _).trans (List.take_sublist last xs)
  exact (hsorted.pairwise.sublist hsub).sortedLE

theorem IsMiddle.part (h : IsMiddle m xs first last) (hlt : first < last) (hlast : last ≤ xs.length) :
    IsMiddle m ((xs.take last).drop first) 0 ((xs.take last).drop first).length := by
  obtain ⟨a, b, ha, hb, hm⟩ := h
  rw [length_take_drop hlast, IsMiddle, Nat.sub_zero, Nat.zero_add, Nat.zero_add, getElem?_part (by omega), getElem?_part (by omega)]
  exact ⟨a, b, ha, hb, hm⟩

theorem getElem?_le (hsorted : xs.SortedLE) {i j : Nat} {a b : Rat} (ha : xs[i]? = some a) (hb : xs[j]? = some b)
    (hij : i ≤ j) : a ≤ b := by
  obtain ⟨hi, rfl⟩ := List.getElem?_eq_some_iff.mp ha
  obtain ⟨hj, rfl⟩ := List.getElem?_eq_some_iff.mp hb
  exact hsorted.getElem_le_getElem_of_le hij

/-- Where both items in the middle of one part stand before those of another one, so do the middles. -/
theorem IsMiddle.le (hsorted : xs.SortedLE) (h : IsMiddle m xs first last) (h' : IsMiddle m' xs first' last')
    (hlow : first + (last - first - 1) / 2 ≤ first' + (last' - first' - 1) / 2)
    (hhigh : first + (last - first) / 2 ≤ first' + (last' - first') / 2) : m ≤ m' := by
  obtain ⟨a, b, ha, hb, rfl⟩ := h
  obtain ⟨a', b', ha', hb', rfl⟩ := h'
  have hfirst : a ≤ a' := getElem?_le hsorted ha ha' hlow
  have hsecond : b ≤ b' := getElem?_le hsorted hb hb' hhigh
  linarith

end Middle

section Box

/-- A box plot stands on values in ascending order. A half has half as many of them, rounded down, but at least one. -/
structure StandsOn (f : Fence Rat) (sorted : List Rat) : Prop where
  median : IsMiddle f.median sorted 0 sorted.length
  lower : IsMiddle f.lowerQuartile sorted 0 (max 1 (sorted.length / 2))
  upper : IsMiddle f.upperQuartile sorted (sorted.length - max 1 (sorted.length / 2)) sorted.length
  lowerExtreme : f.lowerExtreme = f.lowerQuartile - 1.5 * (f.upperQuartile - f.lowerQuartile)
  upperExtreme : f.upperExtreme = f.upperQuartile + 1.5 * (f.upperQuartile - f.lowerQuartile)

variable {f g : Fence Rat} {sorted : List Rat}

theorem StandsOn.unique (hf : f.StandsOn sorted) (hg : g.StandsOn sorted) : f = g := by
  have hmedian := hf.median.unique hg.median
  have hlower := hf.lower.unique hg.lower
  have hupper := hf.upper.unique hg.upper
  have hlowest := hf.lowerExtreme
  have hhighest := hf.upperExtreme
  rw [hlower, hupper, ← hg.lowerExtreme] at hlowest
  rw [hlower, hupper, ← hg.upperExtreme] at hhighest
  cases f
  cases g
  simp only [mk.injEq]
  exact ⟨hlowest, hlower, hupper, hhighest, hmedian⟩

theorem magnitude_of_nonneg {x : Rat} (h : 0 ≤ x) : magnitude x = x := by
  have hzero : (0.0 : Rat) = 0 := by norm_num
  rw [magnitude, hzero]
  split_ifs with hle
  · rw [le_antisymm hle h, sub_zero]
  · rfl

theorem standsOn_single (x : Rat) : StandsOn ⟨x, x, x, x, x⟩ [x] := by
  have hmiddle : IsMiddle x [x] 0 1 := isMiddle_single [x] (Nat.lt_succ_self 0)
  have hhalf : max 1 ([x].length / 2) = 1 := by rw [List.length_singleton]; decide
  constructor
  · exact hmiddle
  · rwa [hhalf]
  · rwa [hhalf]
  · rw [sub_self, mul_zero, sub_zero]
  · rw [sub_self, mul_zero, add_zero]

theorem standsOn_around (hsorted : sorted.SortedLE) (htwo : 2 ≤ sorted.length) {lower upper median : Rat}
    (hmedian : IsMiddle median sorted 0 sorted.length) (hlower : IsMiddle lower sorted 0 (sorted.length / 2))
    (hupper : IsMiddle upper sorted (sorted.length / 2 + sorted.length % 2) sorted.length) :
    StandsOn (around lower upper median) sorted := by
  have hhalf : max 1 (sorted.length / 2) = sorted.length / 2 := by omega
  have hfirst : sorted.length - sorted.length / 2 = sorted.length / 2 + sorted.length % 2 := by omega
  have hle : lower ≤ upper := hlower.le hsorted hupper (by omega) (by omega)
  have hrange : magnitude (upper - lower) = upper - lower := magnitude_of_nonneg (sub_nonneg.mpr hle)
  constructor
  · exact hmedian
  · rw [hhalf]
    exact hlower
  · rw [hhalf, hfirst]
    exact hupper
  · rw [around, hrange]
  · rw [around, hrange]

/-- The box plot of values stands on them in ascending order. Only their indices are read to find it. -/
theorem ofValuesReading?_standsOn {read : List Rat → Int → Except OutOfRange Rat} (hread : ReadsItems read)
    {xs : List Rat} (hne : xs ≠ []) :
    ∃ f, ofValuesReading? read xs = .ok (some f) ∧ f.StandsOn (ascending xs) := by
  rcases ofValuesReading?_cases hread hne with
    ⟨x, hsingle, hbox⟩ | ⟨sorted, median, lower, upper, rfl, htwo, hmedian, hlower, hupper, hbox⟩
  · refine ⟨_, hbox, ?_⟩
    rw [hsingle]
    exact standsOn_single x
  · have hmiddle := isMiddle_of_medianReading (hread.part (ascending xs) 0 (ascending xs).length)
      (by omega) (Nat.le_refl _) hmedian
    have hlow := isMiddle_of_medianReading (hread.part (ascending xs) 0 ((ascending xs).length / 2))
      (by omega) (by omega) hlower
    have hhigh := isMiddle_of_medianReading (hread.part (ascending xs) _ _) (by omega) (Nat.le_refl _) hupper
    exact ⟨_, hbox, standsOn_around (sortedLE_ascending xs) htwo hmiddle hlow hhigh⟩

theorem StandsOn.reading_eq {xs : List Rat} (h : f.StandsOn (ascending xs)) (hne : xs ≠ [])
    {read : List Rat → Int → Except OutOfRange Rat} (hread : ReadsItems read) :
    ofValuesReading? read xs = .ok (some f) := by
  obtain ⟨g, hg, hstands⟩ := ofValuesReading?_standsOn hread hne
  rw [hg, h.unique hstands]

/-- A box plot quarters values. Its quartiles are the medians of the least half of them and of the greatest half, without
the one in the middle if their number is odd, and the fences lie outside of the quartiles. -/
structure Quarters (f : Fence Rat) (xs : List Rat) : Prop where
  ordered : f.lowerExtreme ≤ f.lowerQuartile ∧ f.lowerQuartile ≤ f.median ∧ f.median ≤ f.upperQuartile ∧
    f.upperQuartile ≤ f.upperExtreme
  bounded : ∃ least ∈ xs, ∃ greatest ∈ xs, (∀ x ∈ xs, least ≤ x ∧ x ≤ greatest) ∧
    least ≤ f.lowerQuartile ∧ f.upperQuartile ≤ greatest
  median : Summary.IsMedian f.median xs
  lower : 2 ≤ xs.length → ∃ low rest, IsCut low rest xs ∧ low.length = xs.length / 2 ∧
    Summary.IsMedian f.lowerQuartile low
  upper : 2 ≤ xs.length → ∃ rest high, IsCut rest high xs ∧ high.length = xs.length / 2 ∧
    Summary.IsMedian f.upperQuartile high
  single : ∀ x, xs = [x] → f.lowerQuartile = x ∧ f.upperQuartile = x
  upperExtreme : f.upperQuartile + 1.5 * (f.upperQuartile - f.lowerQuartile) = f.upperExtreme
  lowerExtreme : f.lowerQuartile - 1.5 * (f.upperQuartile - f.lowerQuartile) = f.lowerExtreme

variable {xs : List Rat}

/-- The middle of a part of ascending values is the median of that part. -/
theorem IsMiddle.isMedian_part {m : Rat} {first last : Nat} (h : IsMiddle m sorted first last)
    (hsorted : sorted.SortedLE) (hlt : first < last) (hlast : last ≤ sorted.length) :
    Summary.IsMedian m ((sorted.take last).drop first) :=
  Summary.isMedian_of_isMiddle (h.part hlt hlast) (List.Perm.refl _) (sortedLE_take_drop hsorted first last)

theorem StandsOn.lower_le_median (h : f.StandsOn sorted) (hsorted : sorted.SortedLE) (hpos : 0 < sorted.length) :
    f.lowerQuartile ≤ f.median :=
  h.lower.le hsorted h.median (by omega) (by omega)

theorem StandsOn.median_le_upper (h : f.StandsOn sorted) (hsorted : sorted.SortedLE) (hpos : 0 < sorted.length) :
    f.median ≤ f.upperQuartile :=
  h.median.le hsorted h.upper (by omega) (by omega)

theorem StandsOn.between (h : f.StandsOn sorted) (hsorted : sorted.SortedLE) (hpos : 0 < sorted.length) :
    sorted[0] ≤ f.lowerQuartile ∧ f.upperQuartile ≤ sorted[sorted.length - 1] := by
  have hfirst : IsMiddle sorted[0] sorted 0 1 := isMiddle_single sorted hpos
  have hlast := isMiddle_single sorted (Nat.sub_lt hpos Nat.one_pos)
  exact ⟨hfirst.le hsorted h.lower (by omega) (by omega), h.upper.le hsorted hlast (by omega) (by omega)⟩

theorem StandsOn.exists_lower (h : f.StandsOn sorted) (hsorted : sorted.SortedLE) (hperm : sorted.Perm xs)
    (htwo : 2 ≤ sorted.length) : ∃ low rest, IsCut low rest xs ∧ low.length = sorted.length / 2 ∧
      Summary.IsMedian f.lowerQuartile low := by
  have hhalf : max 1 (sorted.length / 2) = sorted.length / 2 := by omega
  have hmedian := h.lower.isMedian_part hsorted (by omega) (by omega)
  rw [hhalf, List.drop_zero] at hmedian
  exact ⟨_, _, isCut_take_drop hsorted hperm _, List.length_take_of_le (by omega), hmedian⟩

theorem StandsOn.exists_upper (h : f.StandsOn sorted) (hsorted : sorted.SortedLE) (hperm : sorted.Perm xs)
    (htwo : 2 ≤ sorted.length) : ∃ rest high, IsCut rest high xs ∧ high.length = sorted.length / 2 ∧
      Summary.IsMedian f.upperQuartile high := by
  have hhalf : max 1 (sorted.length / 2) = sorted.length / 2 := by omega
  have hlength : (sorted.drop (sorted.length - sorted.length / 2)).length = sorted.length / 2 := by
    rw [List.length_drop]
    omega
  have hmedian := h.upper.isMedian_part hsorted (by omega) (by omega)
  rw [hhalf, List.take_length] at hmedian
  exact ⟨_, _, isCut_take_drop hsorted hperm _, hlength, hmedian⟩

theorem StandsOn.quarters (h : f.StandsOn sorted) (hsorted : sorted.SortedLE) (hperm : sorted.Perm xs)
    (hne : xs ≠ []) : f.Quarters xs := by
  have hlength : sorted.length = xs.length := hperm.length_eq
  have hpos : 0 < sorted.length := hlength ▸ List.length_pos_iff.mpr hne
  have hlower := h.lower_le_median hsorted hpos
  have hupper := h.median_le_upper hsorted hpos
  have hrange : 0 ≤ 1.5 * (f.upperQuartile - f.lowerQuartile) :=
    mul_nonneg (by norm_num) (sub_nonneg.mpr (hlower.trans hupper))
  have hlowest := h.lowerExtreme
  have hhighest := h.upperExtreme
  constructor
  case ordered => exact ⟨by linarith, hlower, hupper, by linarith⟩
  case bounded =>
    refine ⟨sorted[0], hperm.mem_iff.mp (List.getElem_mem _), sorted[sorted.length - 1],
      hperm.mem_iff.mp (List.getElem_mem _), fun x hx => ?_, h.between hsorted hpos⟩
    obtain ⟨i, hi, rfl⟩ := List.getElem_of_mem (hperm.mem_iff.mpr hx)
    exact ⟨hsorted.getElem_le_getElem_of_le (Nat.zero_le i), hsorted.getElem_le_getElem_of_le (by omega)⟩
  case median => exact Summary.isMedian_of_isMiddle h.median hperm hsorted
  case lower =>
    intro htwo
    rw [← hlength] at htwo ⊢
    exact h.exists_lower hsorted hperm htwo
  case upper =>
    intro htwo
    rw [← hlength] at htwo ⊢
    exact h.exists_upper hsorted hperm htwo
  case single =>
    rintro x rfl
    obtain rfl : sorted = [x] := List.perm_singleton.mp hperm
    obtain rfl := h.unique (standsOn_single x)
    exact ⟨rfl, rfl⟩
  case upperExtreme => exact hhighest.symm
  case lowerExtreme => exact hlowest.symm

/-- Values that there is at least one of have a box plot, which quarters them. It is the same for the values in any other
order, and the same whatever is read at indices that the list does not have. -/
theorem ofValues?_quarters (xs : List Rat) (hne : xs ≠ []) : ∃ f : Fence Rat,
    ofValues? xs = .ok (some f) ∧ f.Quarters xs ∧
      (∀ ys : List Rat, ys.Perm xs → ofValues? ys = .ok (some f)) ∧
      ∀ read, ReadsItems read → ofValuesReading? read xs = .ok (some f) := by
  obtain ⟨f, hf, hstands⟩ := ofValuesReading?_standsOn readsItems_item hne
  have hquarters : f.Quarters xs := hstands.quarters (sortedLE_ascending xs) (ascending_perm xs) hne
  refine ⟨f, hf, hquarters, fun ys hperm => ?_, fun read hread => hstands.reading_eq hne hread⟩
  rw [ofValues?_eq_of_perm hperm]
  exact hf

/-- Nine values, so halves of four; the fifth in order belongs to neither. -/
theorem ofValues?_quarters_nine :
    let xs : List Rat := [7, 1, 5, 3, 3, 2, 12, 4, 8]
    xs ≠ [] ∧ ofValues? xs = .ok (some ⟨-5, 5 / 2, 15 / 2, 15, 4⟩) ∧ Quarters ⟨-5, 5 / 2, 15 / 2, 15, 4⟩ xs := by
  intro xs
  have hne : xs ≠ [] := List.cons_ne_nil _ _
  have hbox : ofValues? xs = .ok (some ⟨-5, 5 / 2, 15 / 2, 15, 4⟩) := by cbv
  obtain ⟨f, hf, hquarters, -, -⟩ := ofValues?_quarters xs hne
  obtain rfl := Option.some.inj (Except.ok.inj (hbox.symm.trans hf))
  exact ⟨hne, hbox, hquarters⟩

end Box

end Fence

end CommentGrade
