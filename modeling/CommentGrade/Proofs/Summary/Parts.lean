import CommentGrade.Proofs.Summary.Quartiles

/-!
# Medians of parts

In exact arithmetic the median of a part of an ascending list lies between the first item of the part and the last one,
and halves it: at least half of its items are not above the median, and at least half of them are not below it. This asks
for an ascending list and a part of it that is not empty. Every median in a box plot or a summary is of such a part: a
function that is the median of such parts only, whatever it does elsewhere, gives the same box plots and summaries.
-/
namespace CommentGrade

open Readability

namespace Fence

section Halves

variable {xs : List Rat} {m : Rat}

/-- A number halves a list if at least half of the items are not above it, and at least half of them are not below it. -/
structure Halves (m : Rat) (xs : List Rat) : Prop where
  notAbove : xs.length ≤ 2 * xs.countP (· ≤ m)
  notBelow : xs.length ≤ 2 * xs.countP (m ≤ ·)

theorem length_le_countP {p : Rat → Bool} {ys : List Rat} (hsub : ys.Sublist xs) (h : ∀ y ∈ ys, p y = true) :
    ys.length ≤ xs.countP p := by
  rw [← List.countP_eq_length.mpr h]
  exact hsub.countP_le

/-- The items in the middle of an ascending list have as many items before them as behind them. -/
theorem IsMiddle.halves (hsorted : xs.SortedLE) (h : IsMiddle m xs 0 xs.length) : Halves m xs := by
  obtain ⟨a, b, ha, hb, hm⟩ := h
  rw [Nat.sub_zero, Nat.zero_add] at ha hb
  have hpos : xs.length / 2 < xs.length := (List.getElem?_eq_some_iff.mp hb).1
  have hab : a ≤ b := getElem?_le hsorted ha hb (by omega)
  have ham : a ≤ m := by linarith
  have hmb : m ≤ b := by linarith
  constructor
  case notAbove =>
    have hfront : ∀ x ∈ xs.take ((xs.length - 1) / 2 + 1), decide (x ≤ m) = true := by
      intro x hx
      obtain ⟨i, hi, rfl⟩ := List.mem_take_iff_getElem.mp hx
      have hitem : xs[i]? = some xs[i] := List.getElem?_eq_getElem _
      exact decide_eq_true ((getElem?_le hsorted hitem ha (by omega)).trans ham)
    have hcount := length_le_countP (List.take_sublist _ xs) hfront
    rw [List.length_take] at hcount
    omega
  case notBelow =>
    have hback : ∀ x ∈ xs.drop (xs.length / 2), decide (m ≤ x) = true := by
      intro x hx
      obtain ⟨i, hi, rfl⟩ := List.mem_drop_iff_getElem.mp hx
      have hitem : xs[xs.length / 2 + i]? = some xs[xs.length / 2 + i] := List.getElem?_eq_getElem _
      exact decide_eq_true (hmb.trans (getElem?_le hsorted hb hitem (by omega)))
    have hcount := length_le_countP (List.drop_sublist _ xs) hback
    rw [List.length_drop] at hcount
    omega

end Halves

section Parts

variable {xs : List Rat} {first last : Nat} {m : Rat}

/-- The items from index `first` up to, not including, index `last`. -/
def slice (xs : List Rat) (first last : Nat) : List Rat := (xs.take last).drop first

/-- The median of a part: the mean of the items in its middle, which are one item if their number is odd. It lies between
the first item and the last one, and halves the part. -/
structure IsMedianOfPart (m : Rat) (xs : List Rat) (first last : Nat) : Prop where
  length : (slice xs first last).length = last - first
  middle : ∃ a b, (slice xs first last)[(last - first - 1) / 2]? = some a ∧
    (slice xs first last)[(last - first) / 2]? = some b ∧ m = (a + b) / 2
  between : ∃ low high, xs[first]? = some low ∧ xs[last - 1]? = some high ∧ low ≤ m ∧ m ≤ high
  halves : Halves m (slice xs first last)

theorem IsMiddle.isMedianOfPart (h : IsMiddle m xs first last) (hsorted : xs.SortedLE) (hlt : first < last)
    (hlast : last ≤ xs.length) : IsMedianOfPart m xs first last := by
  have hpart : IsMiddle m (slice xs first last) 0 (slice xs first last).length := h.part hlt hlast
  have hfirst := isMiddle_single xs (hlt.trans_le hlast)
  have hfinal := isMiddle_single xs (show last - 1 < xs.length by omega)
  constructor
  case length => exact length_take_drop hlast
  case middle =>
    obtain ⟨a, b, ha, hb, hm⟩ := hpart
    rw [slice, length_take_drop hlast, Nat.sub_zero, Nat.zero_add] at ha hb
    exact ⟨a, b, ha, hb, hm⟩
  case between =>
    exact ⟨_, _, List.getElem?_eq_getElem _, List.getElem?_eq_getElem _,
      hfirst.le hsorted h (by omega) (by omega), h.le hsorted hfinal (by omega) (by omega)⟩
  case halves => exact hpart.halves (sortedLE_take_drop hsorted first last)

end Parts

section Calls

variable {α : Type} [Add α] [Sub α] [Mul α] [Div α] [OfScientific α] [LE α] [DecidableLE α]

/-- The box plot of values, where a function is called for its medians. -/
def ofValuesCalling? (median : List α → Int → Int → Except OutOfRange α) (xs : List α) :
    Except OutOfRange (Option (Fence α)) :=
  match ascending xs with
  | [] => .ok none
  | [x] => .ok (some ⟨x, x, x, x, x⟩)
  | sorted => do
    let n : Nat := sorted.length
    let middle ← median sorted 0 n
    let lower ← median sorted 0 (n / 2 : Nat)
    let upper ← median sorted (n / 2 + n % 2 : Nat) n
    return some (around lower upper middle)

theorem ofValues?_eq_calling (xs : List α) : ofValues? xs = ofValuesCalling? medianOfRange xs := rfl

end Calls

section Proper

/-- What a median of a part asks for: an ascending list, and a part of it with one item at least. -/
structure IsProper (xs : List Rat) (first last : Int) : Prop where
  sorted : xs.SortedLE
  nonneg : 0 ≤ first
  lt : first < last
  le : last ≤ xs.length

/-- Functions that are the median of proper parts. Elsewhere they may do anything, fail for example. -/
def IsMedianOfProper (median : List Rat → Int → Int → Except OutOfRange Rat) : Prop :=
  ∀ xs first last, IsProper xs first last → median xs first last = medianOfRange xs first last

/-- The median of a proper part, and a failure for any other. -/
def properMedian (xs : List Rat) (first last : Int) : Except OutOfRange Rat :=
  if xs.Pairwise (· ≤ ·) ∧ 0 ≤ first ∧ first < last ∧ last ≤ xs.length then medianOfRange xs first last
  else .error .outOfRange

theorem isMedianOfProper_properMedian : IsMedianOfProper properMedian := by
  intro xs first last h
  exact if_pos ⟨h.sorted.pairwise, h.nonneg, h.lt, h.le⟩

variable {median : List Rat → Int → Int → Except OutOfRange Rat}

theorem ofValuesCalling?_eq (hmedian : IsMedianOfProper median) (xs : List Rat) :
    ofValuesCalling? median xs = ofValues? xs := by
  have hsorted : (ascending xs).SortedLE := sortedLE_ascending xs
  rw [ofValues?_eq_calling]
  unfold ofValuesCalling?
  generalize ascending xs = sorted at hsorted ⊢
  match sorted, hsorted with
  | [], _ | [x], _ => rfl
  | a :: b :: rest, hsorted =>
    have htwo : 2 ≤ (a :: b :: rest).length := by simp
    generalize hn : (a :: b :: rest).length = n at htwo
    have hall : IsProper (a :: b :: rest) 0 n := ⟨hsorted, le_rfl, by omega, by omega⟩
    have hlow : IsProper (a :: b :: rest) 0 (n / 2 : Nat) := ⟨hsorted, le_rfl, by omega, by omega⟩
    have hhigh : IsProper (a :: b :: rest) (n / 2 + n % 2 : Nat) n := ⟨hsorted, by omega, by omega, by omega⟩
    simp only [hn, hmedian _ _ _ hall, hmedian _ _ _ hlow, hmedian _ _ _ hhigh]

end Proper

end Fence

namespace Summary

section Calls

variable {α : Type} [Add α] [Sub α] [Mul α] [Div α] [OfScientific α] [NatCast α] [LE α] [DecidableLE α]

/-- The column of a metric, where a function is called for the medians in its box plot. -/
def columnCalling (median : List α → Int → Int → Except OutOfRange α) (stats : List (Stats α)) (t : MetricTable)
    (metric : String) : Except OutOfRange (Column α) := do
  let values := stats.map (·.value t metric)
  let fence ← Fence.ofValuesCalling? median values
  return ⟨metric, fence, some (mean values)⟩

/-- The summary of comments that there is at least one of, where a function is called for all medians. -/
def ofCommentsCalling (median : List α → Int → Int → Except OutOfRange α) (stats : List (Stats α))
    (kinds : List CommentKind) : Except OutOfRange (Summary α) := do
  let columns ← MetricTable.all.mapM fun t => do
    let cs ← t.metrics.mapM (columnCalling median stats t)
    return (t, cs)
  let grades := ascending (stats.map Stats.textMedian)
  let middle ← median grades 0 grades.length
  return ⟨stats.length, kindShares kinds, columns, some middle⟩

/-- The summary of comments, where a function is called for all medians. -/
def makeCalling (median : List α → Int → Int → Except OutOfRange α) (stats : List (Stats α))
    (kinds : List CommentKind) : Except SummaryError (Summary α) :=
  if stats.length ≠ kinds.length then .error (.lengths stats.length kinds.length)
  else if stats.isEmpty then .ok empty
  else (ofCommentsCalling median stats kinds).mapError .index

theorem make_eq_calling (stats : List (Stats α)) (kinds : List CommentKind) :
    make stats kinds = makeCalling Fence.medianOfRange stats kinds := rfl

end Calls

section Proper

variable {median : List Rat → Int → Int → Except OutOfRange Rat} {stats : List (Stats Rat)}

theorem ofCommentsCalling_eq (hmedian : Fence.IsMedianOfProper median) (hne : stats ≠ []) (kinds : List CommentKind) :
    ofCommentsCalling median stats kinds = ofComments stats kinds := by
  have hcolumn : columnCalling median stats = column stats := by
    funext t metric
    rw [columnCalling, column, Fence.ofValuesCalling?_eq hmedian]
  have hpos : 0 < (ascending (stats.map Stats.textMedian)).length :=
    length_ascending_pos (mt List.map_eq_nil_iff.mp hne)
  have hgrades : Fence.IsProper (ascending (stats.map Stats.textMedian)) 0
      (ascending (stats.map Stats.textMedian)).length :=
    ⟨sortedLE_ascending _, le_rfl, Int.natCast_pos.mpr hpos, le_rfl⟩
  simp only [ofCommentsCalling, ofComments, hcolumn, hmedian _ _ _ hgrades]

theorem makeCalling_eq (hmedian : Fence.IsMedianOfProper median) (stats : List (Stats Rat)) (kinds : List CommentKind) :
    makeCalling median stats kinds = make stats kinds := by
  by_cases hne : stats = []
  · subst hne
    rfl
  · rw [make_eq_calling, makeCalling, ofCommentsCalling_eq hmedian hne]
    rfl

end Proper

/-- A proper part has a median, for which only the part is read. All medians in box plots and in summaries are of proper
parts: it makes no difference what a function that is called for them does with other arguments. -/
theorem medianOfRange_halves :
    (∀ (xs : List Rat) (first last : Nat), Fence.IsProper xs first last →
      ∃ m, Fence.medianOfRange xs first last = .ok m ∧ Fence.IsMedianOfPart m xs first last ∧
        ∀ read, Fence.ReadsPart read xs first last → Fence.medianReading read first last = .ok m) ∧
    (∀ median, Fence.IsMedianOfProper median →
      (∀ xs : List Rat, Fence.ofValuesCalling? median xs = Fence.ofValues? xs) ∧
      ∀ (stats : List (Stats Rat)) (kinds : List CommentKind), makeCalling median stats kinds = make stats kinds) := by
  refine ⟨fun xs first last hproper => ?_, fun median hmedian => ?_⟩
  · have hlt : first < last := Int.ofNat_lt.mp hproper.lt
    have hlast : last ≤ xs.length := Int.ofNat_le.mp hproper.le
    obtain ⟨m, hm, hmiddle⟩ := Fence.exists_isMiddle (Fence.readsPart_item xs first last) hlt hlast
    refine ⟨m, hm, hmiddle.isMedianOfPart hproper.sorted hlt hlast, fun read hread => ?_⟩
    obtain ⟨m', hm', hmiddle'⟩ := Fence.exists_isMiddle hread hlt hlast
    rw [hm', hmiddle'.unique hmiddle]
  · exact ⟨Fence.ofValuesCalling?_eq hmedian, makeCalling_eq hmedian⟩

/-- Four items of six, and a summary of three comments where a median fails that is not one of a proper part. -/
theorem medianOfRange_halves_four :
    let xs : List Rat := [0, 1, 2, 5, 7, 9]
    let stats : List (Stats Rat) := [⟨[("char_count", 10)], [], [("text_median", 4)]⟩,
      ⟨[("char_count", 20)], [], [("text_median", 8)]⟩, ⟨[], [], [("text_median", 6)]⟩]
    let kinds : List CommentKind := [.line, .block, .block]
    Fence.IsProper xs (1 : Nat) (5 : Nat) ∧ Fence.medianOfRange xs (1 : Nat) (5 : Nat) = .ok (7 / 2) ∧
      Fence.IsMedianOfPart (7 / 2) xs 1 5 ∧ Fence.IsMedianOfProper Fence.properMedian ∧
      Fence.properMedian xs 5 1 = .error .outOfRange ∧
      makeCalling Fence.properMedian stats kinds = make stats kinds ∧
      (make stats kinds).map (·.medianGrade) = .ok (some 6) := by
  intro xs stats kinds
  have hproper : Fence.IsProper xs (1 : Nat) (5 : Nat) :=
    ⟨List.Pairwise.sortedLE (by decide), by decide, by decide, by decide⟩
  have hmedian : Fence.medianOfRange xs (1 : Nat) (5 : Nat) = .ok (7 / 2) := by cbv
  have hgrade : (make stats kinds).map (·.medianGrade) = .ok (some 6) := by cbv
  obtain ⟨hparts, hcalls⟩ := medianOfRange_halves
  obtain ⟨m, hm, hpart, -⟩ := hparts xs 1 5 hproper
  obtain rfl := Except.ok.inj (hmedian.symm.trans hm)
  exact ⟨hproper, hmedian, hpart, Fence.isMedianOfProper_properMedian, by cbv,
    (hcalls _ Fence.isMedianOfProper_properMedian).2 stats kinds, hgrade⟩

end Summary

end CommentGrade
