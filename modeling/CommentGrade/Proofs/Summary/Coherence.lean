import CommentGrade.Proofs.Summary.Quartiles

/-!
# Summaries are coherent

A summary says the same of the grades in two ways: as their median, and in the box plot of their column. Each column is
about its own metric only. In exact arithmetic it does not matter in which order the comments are. A sum of doubles
depends on the order of its terms, so the means of a reordered batch may differ there in their last digits.
-/
namespace CommentGrade

open Readability

namespace Summary

section Columns

variable {α : Type} {s : Summary α} {c : MetricTable → String → Column α}

/-- The mean of a metric, if the table and the metric exist. -/
def mean? (s : Summary α) (table metric : String) : Option α := do
  let t ← MetricTable.ofName? table
  let c ← (s.columnsOf t).find? (·.metric == metric)
  c.mean

theorem ofName?_name (t : MetricTable) : MetricTable.ofName? t.name = some t := by
  cases t <;> decide

theorem columnsOf_eq (hcolumns : s.columns = MetricTable.all.map fun t => (t, t.metrics.map (c t)))
    (t : MetricTable) : s.columnsOf t = t.metrics.map (c t) := by
  rw [columnsOf, hcolumns]
  cases t <;> rfl

theorem find?_columnsOf (hcolumns : s.columns = MetricTable.all.map fun t => (t, t.metrics.map (c t)))
    (hmetric : ∀ t metric, (c t metric).metric = metric) {t : MetricTable} {metric : String}
    (h : metric ∈ t.metrics) : (s.columnsOf t).find? (·.metric == metric) = some (c t metric) := by
  obtain ⟨name, hname⟩ : ∃ name, t.metrics.find? (· == metric) = some name := by
    rw [← Option.isSome_iff_exists, List.find?_isSome]
    exact ⟨metric, h, beq_self_eq_true metric⟩
  obtain rfl : name = metric := by simpa using List.find?_some hname
  have hkey : ((·.metric == name) ∘ c t) = (· == name) := by
    funext m
    rw [Function.comp_apply, hmetric]
  rw [columnsOf_eq hcolumns, List.find?_map, hkey, hname, Option.map_some]

theorem fence?_name (s : Summary α) (t : MetricTable) (metric : String) :
    s.fence? t.name metric = ((s.columnsOf t).find? (·.metric == metric)).bind (·.fence) := by
  rw [fence?, ofName?_name]
  rfl

theorem mean?_name (s : Summary α) (t : MetricTable) (metric : String) :
    s.mean? t.name metric = ((s.columnsOf t).find? (·.metric == metric)).bind (·.mean) := by
  rw [mean?, ofName?_name]
  rfl

end Columns

section Coherence

variable {α : Type} [Add α] [Sub α] [Mul α] [Div α] [OfScientific α] [NatCast α] [LE α] [DecidableLE α]

/-- What a summary says about comments with these metrics. Each metric has the box plot and the mean of the values under
its name, and the grade is the median in the box plot of the grades. -/
structure Coherent (s : Summary α) (stats : List (Stats α)) : Prop where
  total : s.total = stats.length
  columns : ∀ t : MetricTable, ∀ metric ∈ t.metrics, ∃ fence : Fence α,
    Fence.ofValues? (stats.map (·.value t metric)) = .ok (some fence) ∧ s.fence? t.name metric = some fence ∧
      s.mean? t.name metric = some (mean (stats.map (·.value t metric)))
  grade : ∃ fence : Fence α, s.fence? "scores" "text_median" = some fence ∧ s.medianGrade = some fence.median


theorem length_eq_of_make {stats : List (Stats α)} {kinds : List CommentKind} {s : Summary α}
    (h : make stats kinds = .ok s) : stats.length = kinds.length := by
  by_contra hlength
  rw [make, if_pos hlength] at h
  cases h

omit [NatCast α] in
/-- The median in the box plot of values is the median of all of them in ascending order. -/
theorem median_of_fence {xs : List α} {fence : Fence α} (hne : xs ≠ [])
    (h : Fence.ofValues? xs = .ok (some fence)) :
    Fence.medianOfRange (ascending xs) 0 (ascending xs).length = .ok fence.median := by
  rw [Fence.ofValues?_eq_reading] at h
  rcases Fence.ofValuesReading?_cases Fence.readsItems_item hne with
    ⟨x, hsingle, hbox⟩ | ⟨_, median, lower, upper, rfl, -, hmedian, -, -, hbox⟩
  · obtain rfl := Option.some.inj (Except.ok.inj (hbox.symm.trans h))
    rw [hsingle]
    exact Fence.medianReading_of_odd (Fence.readsPart_item [x] 0 1) Nat.one_pos (Nat.le_refl 1) rfl
  · obtain rfl := Option.some.inj (Except.ok.inj (hbox.symm.trans h))
    exact hmedian

theorem exists_coherent {stats : List (Stats α)} {kinds : List CommentKind} (hne : stats ≠ [])
    (h : stats.length = kinds.length) : ∃ s, make stats kinds = .ok s ∧ s.Coherent stats := by
  obtain ⟨c, median, hc, hmedian, hcomments⟩ := exists_ofComments hne kinds
  choose fence hvalues hcolumn using column_of_ne_nil hne
  have hc_eq : ∀ t metric,
      c t metric = ⟨metric, some (fence t metric), some (mean (stats.map (·.value t metric)))⟩ := fun t metric =>
    Except.ok.inj ((hc t metric).symm.trans (hcolumn t metric))
  have hmetric : ∀ t metric, (c t metric).metric = metric := fun t metric => by rw [hc_eq]
  refine ⟨_, by rw [make_of_ne_nil hne h, hcomments]; rfl, ?_⟩
  constructor
  case total => rfl
  case columns =>
    intro t metric hmem
    refine ⟨fence t metric, hvalues t metric, ?_, ?_⟩
    · rw [fence?_name, find?_columnsOf (c := c) rfl hmetric hmem, Option.bind_some, hc_eq]
    · rw [mean?_name, find?_columnsOf (c := c) rfl hmetric hmem, Option.bind_some, hc_eq]
  case grade =>
    have hmem : "text_median" ∈ MetricTable.scores.metrics := by decide
    have hvalue : stats.map Stats.textMedian = stats.map (·.value .scores "text_median") := rfl
    have hname : "scores" = MetricTable.scores.name := rfl
    have hsame := median_of_fence (mt List.map_eq_nil_iff.mp hne) (hvalues .scores "text_median")
    rw [hvalue, hsame] at hmedian
    refine ⟨fence .scores "text_median", ?_, congrArg some (Except.ok.inj hmedian).symm⟩
    rw [hname, fence?_name, find?_columnsOf (c := c) rfl hmetric hmem, Option.bind_some, hc_eq]

/-- The columns of a metric in two summaries tell the same where its values are the same. -/
theorem Coherent.column_congr {s s' : Summary α} {stats stats' : List (Stats α)} (h : s.Coherent stats)
    (h' : s'.Coherent stats') {t : MetricTable} {metric : String} (hmem : metric ∈ t.metrics)
    (hvalues : stats.map (·.value t metric) = stats'.map (·.value t metric)) :
    s.fence? t.name metric = s'.fence? t.name metric ∧ s.mean? t.name metric = s'.mean? t.name metric := by
  obtain ⟨fence, hbox, hfence, hmean⟩ := h.columns t metric hmem
  obtain ⟨fence', hbox', hfence', hmean'⟩ := h'.columns t metric hmem
  rw [hvalues] at hbox hmean
  obtain rfl := Option.some.inj (Except.ok.inj (hbox.symm.trans hbox'))
  exact ⟨hfence.trans hfence'.symm, hmean.trans hmean'.symm⟩

end Coherence

section Order

variable {stats stats' : List (Stats Rat)} {kinds kinds' : List CommentKind}

theorem kindShares_perm (h : kinds'.Perm kinds) :
    (kindShares kinds' : List (CommentKind × Rat)).Perm (kindShares kinds) := by
  have hdups : kinds'.eraseDups.Perm kinds.eraseDups :=
    ((eraseDups_perm_dedup kinds').trans h.dedup).trans (eraseDups_perm_dedup kinds).symm
  simp only [kindShares, h.count_eq, h.length_eq]
  exact hdups.map _

theorem mean_perm {xs ys : List Rat} (h : xs.Perm ys) : mean xs = mean ys := by
  rw [mean_eq, mean_eq, h.sum_eq, h.length_eq]

theorem mean_bounds {xs : List Rat} (hne : xs ≠ []) : ∃ least ∈ xs, ∃ greatest ∈ xs,
    (∀ x ∈ xs, least ≤ x ∧ x ≤ greatest) ∧ least ≤ mean xs ∧ mean xs ≤ greatest := by
  have hperm := ascending_perm xs
  have hpos : 0 < (ascending xs).length := length_ascending_pos hne
  obtain ⟨least, hleast, greatest, hgreatest, hbounds, -⟩ := mean_between (sortedLE_ascending xs) hpos hpos
  have hbetween : ∀ x ∈ xs, least ≤ x ∧ x ≤ greatest := fun x hx => hbounds x (hperm.mem_iff.mpr hx)
  have hlength : (0 : Rat) < xs.length := Nat.cast_pos.mpr (List.length_pos_iff.mpr hne)
  have hlow := List.card_nsmul_le_sum xs least fun x hx => (hbetween x hx).1
  have hhigh := List.sum_le_card_nsmul xs greatest fun x hx => (hbetween x hx).2
  rw [nsmul_eq_mul] at hlow hhigh
  refine ⟨least, hperm.mem_iff.mp hleast, greatest, hperm.mem_iff.mp hgreatest, hbetween, ?_, ?_⟩
  · rw [mean_eq, le_div_iff₀ hlength, mul_comm]
    exact hlow
  · rw [mean_eq, div_le_iff₀ hlength, mul_comm]
    exact hhigh

/-- The mean of each metric lies between the least and the greatest of its values. -/
def MeansBetween (s : Summary Rat) (stats : List (Stats Rat)) : Prop :=
  ∀ t : MetricTable, ∀ metric ∈ t.metrics, ∃ mean, s.mean? t.name metric = some mean ∧
    ∃ least ∈ stats.map (·.value t metric), ∃ greatest ∈ stats.map (·.value t metric),
      (∀ x ∈ stats.map (·.value t metric), least ≤ x ∧ x ≤ greatest) ∧ least ≤ mean ∧ mean ≤ greatest

theorem Coherent.meansBetween {s : Summary Rat} (h : s.Coherent stats) (hne : stats ≠ []) : s.MeansBetween stats := by
  intro t metric hmem
  obtain ⟨-, -, -, hmean⟩ := h.columns t metric hmem
  exact ⟨_, hmean, mean_bounds (mt List.map_eq_nil_iff.mp hne)⟩

theorem column_perm (h : stats'.Perm stats) (t : MetricTable) (metric : String) :
    column stats' t metric = column stats t metric := by
  rw [column, column, Fence.ofValues?_eq_of_perm (h.map _), mean_perm (h.map _)]

/-- Two summaries that tell the same, though they may list the kinds in another order. -/
structure SameUpToOrder (s s' : Summary Rat) : Prop where
  total : s.total = s'.total
  columns : s.columns = s'.columns
  medianGrade : s.medianGrade = s'.medianGrade
  kinds : s.kinds.Perm s'.kinds

/-- Comments in another order have the same summary, but for the order in which their kinds occur first. -/
theorem exists_make_perm {s : Summary Rat} (hne : stats ≠ []) (h : make stats kinds = .ok s)
    (hstats : stats'.Perm stats) (hkinds : kinds'.Perm kinds) :
    ∃ s', make stats' kinds' = .ok s' ∧ s'.SameUpToOrder s := by
  have hlength : stats.length = kinds.length := length_eq_of_make h
  have hne' : stats' ≠ [] := fun hnil => hne (List.nil_perm.mp (hnil ▸ hstats))
  have hlength' : stats'.length = kinds'.length := by rw [hstats.length_eq, hkinds.length_eq, hlength]
  obtain ⟨c, median, hc, hmedian, hcomments⟩ := exists_ofComments hne kinds
  obtain ⟨c', median', hc', hmedian', hcomments'⟩ := exists_ofComments hne' kinds'
  obtain rfl : c' = c := by
    funext t metric
    have hcolumn := (hc' t metric).symm.trans ((column_perm hstats t metric).trans (hc t metric))
    exact Except.ok.inj hcolumn
  rw [ascending_eq_of_perm (hstats.map _)] at hmedian'
  obtain rfl := Except.ok.inj (hmedian'.symm.trans hmedian)
  rw [make_of_ne_nil hne hlength, hcomments] at h
  obtain rfl := Except.ok.inj h
  refine ⟨_, by rw [make_of_ne_nil hne' hlength', hcomments']; rfl, ?_⟩
  exact ⟨hstats.length_eq, rfl, rfl, kindShares_perm hkinds⟩

end Order

/-- A summary of comments, if it gets as many kinds as metrics, is coherent in any arithmetic, and what it says about a
metric depends on the values of this metric only. In exact arithmetic each mean is between the least and the greatest
value, and comments in another order, whatever becomes of the order of their kinds, have the same summary. -/
theorem make_coherent {α : Type} [Add α] [Sub α] [Mul α] [Div α] [OfScientific α] [NatCast α] [LE α] [DecidableLE α] :
    (∀ (stats : List (Stats α)) (kinds : List CommentKind), stats.length ≠ kinds.length →
      make stats kinds = .error (.lengths stats.length kinds.length)) ∧
    make ([] : List (Stats α)) [] = .ok .empty ∧
    (∀ (stats : List (Stats α)) (kinds : List CommentKind), stats ≠ [] → stats.length = kinds.length →
      ∃ s, make stats kinds = .ok s ∧ s.Coherent stats ∧
        ∀ (stats' : List (Stats α)) (kinds' : List CommentKind) (s' : Summary α), make stats' kinds' = .ok s' →
          ∀ t : MetricTable, ∀ metric ∈ t.metrics,
            stats.map (·.value t metric) = stats'.map (·.value t metric) →
              s.fence? t.name metric = s'.fence? t.name metric ∧ s.mean? t.name metric = s'.mean? t.name metric) ∧
    (∀ (stats : List (Stats Rat)) (kinds : List CommentKind), stats ≠ [] → stats.length = kinds.length →
      ∃ s, make stats kinds = .ok s ∧ s.MeansBetween stats ∧
        ∀ (stats' : List (Stats Rat)) (kinds' : List CommentKind), stats'.Perm stats → kinds'.Perm kinds →
          ∃ s', make stats' kinds' = .ok s' ∧ s'.SameUpToOrder s) := by
  refine ⟨fun stats kinds hlength => if_pos hlength, rfl, fun stats kinds hne hlength => ?_,
    fun stats kinds hne hlength => ?_⟩
  · obtain ⟨s, hs, hcoherent⟩ := exists_coherent hne hlength
    refine ⟨s, hs, hcoherent, fun stats' kinds' s' hs' t metric hmem hvalues => ?_⟩
    have hne' : stats' ≠ [] := by
      rintro rfl
      exact hne (List.map_eq_nil_iff.mp hvalues)
    obtain ⟨_, hother, hcoherent'⟩ := exists_coherent hne' (length_eq_of_make hs')
    obtain rfl := Except.ok.inj (hother.symm.trans hs')
    exact hcoherent.column_congr hcoherent' hmem hvalues
  · obtain ⟨s, hs, hcoherent⟩ := exists_coherent hne hlength
    refine ⟨s, hs, hcoherent.meansBetween hne, fun stats' kinds' hstats hkinds => ?_⟩
    exact exists_make_perm hne hs hstats hkinds

/-- Three comments whose tables lack names, and the same ones in the opposite order. -/
theorem make_coherent_reverse :
    let stats : List (Stats Rat) := [⟨[("char_count", 10)], [], [("text_median", 4)]⟩,
      ⟨[("char_count", 20)], [], [("text_median", 8)]⟩, ⟨[], [], [("text_median", 6)]⟩]
    let kinds : List CommentKind := [.line, .block, .block]
    stats ≠ [] ∧ stats.length = kinds.length ∧ stats.length ≠ ([] : List CommentKind).length ∧
      make stats [] = .error (.lengths 3 0) ∧
      ∃ s, make stats kinds = .ok s ∧ s.Coherent stats ∧ s.MeansBetween stats ∧ s.medianGrade = some 6 ∧
        s.mean? "counts" "char_count" = some 10 ∧
        ∃ s', make stats.reverse kinds.reverse = .ok s' ∧ s'.SameUpToOrder s := by
  intro stats kinds
  have hne : stats ≠ [] := List.cons_ne_nil _ _
  have hlength : stats.length = kinds.length := rfl
  have hlengths : stats.length ≠ ([] : List CommentKind).length := by decide
  have hvalues : (make stats kinds).map (fun s => (s.medianGrade, s.mean? "counts" "char_count")) =
      .ok (some 6, some 10) := by cbv
  obtain ⟨herror, -, hany, hexact⟩ := make_coherent (α := Rat)
  obtain ⟨s, hs, hcoherent, -⟩ := hany stats kinds hne hlength
  obtain ⟨_, hs', hmeans, horder⟩ := hexact stats kinds hne hlength
  obtain rfl := Except.ok.inj (hs.symm.trans hs')
  rw [hs] at hvalues
  obtain ⟨hmedian, hmean⟩ := Prod.mk.inj (Except.ok.inj hvalues)
  exact ⟨hne, hlength, hlengths, herror stats [] hlengths, s, hs, hcoherent, hmeans, hmedian, hmean,
    horder _ _ (List.reverse_perm _) (List.reverse_perm _)⟩

end Summary

end CommentGrade
