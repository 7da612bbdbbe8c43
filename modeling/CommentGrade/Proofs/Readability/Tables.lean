import CommentGrade.Proofs.Number.Exact
import CommentGrade.Readability.Evaluation
import Mathlib.Data.List.Sort
import Mathlib.Tactic.Linarith
import Mathlib.Tactic.NormNum.OfScientific

/-!
# The tables of an evaluated text

A formula may give what is not a number, nothing, or fail in the ways that formulas fail. Each outcome settles to a
finite number all the same, so there are tables of every text, with all their names, and with finite numbers under
these. Only the median is computed from scores, and where sums are exact it lies between the grades.
-/
namespace CommentGrade.Readability

open Number

section Outcomes

def foreseenCauses : List Cause := [.zeroDivision, .value, .type, .index]

variable {α : Type}

/-- What a call of a formula may come to: any number, also one that is not finite, a whole number in the range of
doubles, nothing, or a failure with a foreseen cause. -/
def Outcome.Foreseen : Outcome α → Prop
  | .number _ | .nothing => True
  | .whole n => n.natAbs ≤ greatestDouble
  | .fault f => f.cause ∈ foreseenCauses

def Formulas.countOutcomes (f : Formulas α) (cs : List Char) : List (Outcome α) :=
  [f.characters cs, f.letters cs, f.words cs, f.syllables cs, f.sentences cs]

def Formulas.scoreOutcomes (f : Formulas α) (cs : List Char) : List (Outcome α) :=
  [f.fleschReadingEase cs, f.fleschKincaidGrade cs, f.polysyllables cs, f.smogIndex cs, f.colemanLiauIndex cs,
    f.automatedReadabilityIndex cs, f.linsearWrite cs, f.daleChall cs, f.gunningFog cs, f.lix cs, f.rix cs]

def Formulas.Foreseen (f : Formulas α) (cs : List Char) : Prop :=
  ∀ o ∈ f.countOutcomes cs ++ f.scoreOutcomes cs, o.Foreseen

/-- The values that stand in a table without being computed. -/
def literals (α : Type) [OfScientific α] : List α := [0.0, 4.0, 5.0, 6.0, 7.0, 8.5, 9.0, 11.0, 13.0, 15.0, 16.0]

/-- Measures that have the whole numbers in the range of doubles, and finite grades. -/
class Regular (α : Type) [OfScientific α] [Measure α] : Prop where
  exists_ofInt? : ∀ {n : Int}, n.natAbs ≤ greatestDouble → ∃ x : α, Measure.ofInt? n = some x
  isFinite_literal : ∀ x ∈ literals α, Measure.isFinite x = true

instance : Regular Float where
  exists_ofInt? h := (exists_ofInt?_isFinite (h.trans_lt greatestDouble_lt)).imp fun _ hx => hx.1
  isFinite_literal := by decide

instance : Regular Exact where
  exists_ofInt? _ := ⟨_, rfl⟩
  isFinite_literal := by decide

instance : Regular Rat where
  exists_ofInt? _ := ⟨_, rfl⟩
  isFinite_literal _ _ := rfl

variable [OfScientific α] [Measure α] [Regular α]

theorem isFinite_zero : Measure.isFinite (0.0 : α) = true := Regular.isFinite_literal _ List.mem_cons_self

theorem isFinite_finiteOrZero (x : α) : Measure.isFinite (finiteOrZero x) = true := by
  unfold finiteOrZero
  cases hx : Measure.isFinite x with
  | true => exact hx
  | false => exact isFinite_zero

/-- The number that an outcome settles to, 0 if it does not. -/
def Outcome.settled (o : Outcome α) : α :=
  match o.settle with
  | .ok x => x
  | .error _ => 0.0

theorem Outcome.Foreseen.settle_eq {o : Outcome α} (h : o.Foreseen) : o.settle = .ok o.settled := by
  cases o with
  | number x => rfl
  | whole n =>
    obtain ⟨x, hx⟩ : ∃ x : α, Measure.ofInt? n = some x := Regular.exists_ofInt? h
    simp only [settled, settle, hx]
  | nothing => rfl
  | fault f =>
    have hcauses : ∀ c ∈ foreseenCauses, c.undefinedHere = true := by decide
    simp only [settled, settle, hcauses _ h, if_true]

theorem Outcome.isFinite_settled (o : Outcome α) : Measure.isFinite o.settled = true := by
  cases o with
  | number x => exact isFinite_finiteOrZero x
  | whole n =>
    cases hx : (Measure.ofInt? n : Option α) with
    | some x => simpa only [settled, settle, hx] using isFinite_finiteOrZero x
    | none => simpa only [settled, settle, hx] using isFinite_zero
  | nothing => exact isFinite_zero
  | fault f =>
    simp only [settled, settle]
    cases f.cause.undefinedHere <;> exact isFinite_zero

end Outcomes

section Grades

variable {α : Type} [OfScientific α] [LE α] [DecidableLE α] [LT α] [DecidableLT α]

theorem fleschGrade_mem (score : α) : fleschGrade score ∈ literals α := by
  simp only [fleschGrade]
  split_ifs <;> simp [literals]

theorem daleChallGrade_mem (score : α) : daleChallGrade score ∈ literals α := by
  unfold daleChallGrade
  split_ifs <;> simp [literals]

end Grades

section Tables

variable {α : Type} [OfScientific α] [Measure α]

/-- The counts of a text if its outcomes are foreseen. -/
def settledCounts (f : Formulas α) (cs : List Char) : Counts α :=
  ⟨(f.characters cs).settled, (f.letters cs).settled, (f.words cs).settled, (f.syllables cs).settled,
    (f.sentences cs).settled⟩

theorem counts_eq [Regular α] {f : Formulas α} {cs : List Char} (h : ∀ o ∈ f.countOutcomes cs, o.Foreseen) :
    Counts.of f cs = .ok (settledCounts f cs) := by
  simp only [Formulas.countOutcomes, List.forall_mem_cons] at h
  obtain ⟨h₁, h₂, h₃, h₄, h₅, -⟩ := h
  rw [Counts.of, h₁.settle_eq, h₂.settle_eq, h₃.settle_eq, h₄.settle_eq, h₅.settle_eq]
  rfl

theorem isFinite_settledCounts [Regular α] (f : Formulas α) (cs : List Char) :
    ∀ entry ∈ (settledCounts f cs).table, Measure.isFinite entry.2 = true := by
  intro entry hentry
  have hvalue := (List.of_mem_zip hentry).2
  simp only [settledCounts, List.mem_cons, List.not_mem_nil, or_false] at hvalue
  rcases hvalue with h | h | h | h | h <;> rw [h] <;> exact Outcome.isFinite_settled _

variable [LE α] [DecidableLE α] [LT α] [DecidableLT α]

section

variable (f : Formulas α) (cs : List Char)

/-- The eight grades, in the order of their names. -/
def settledGrades : List α :=
  [(f.fleschKincaidGrade cs).settled, fleschGrade (f.fleschReadingEase cs).settled, (f.smogIndex cs).settled,
    (f.colemanLiauIndex cs).settled, (f.automatedReadabilityIndex cs).settled,
    daleChallGrade (f.daleChall cs).settled, (f.linsearWrite cs).settled, (f.gunningFog cs).settled]

/-- All scores but the median, in the order of their names. -/
def settledScores : List α :=
  [(f.fleschReadingEase cs).settled, fleschGrade (f.fleschReadingEase cs).settled, (f.fleschKincaidGrade cs).settled,
    (f.polysyllables cs).settled, (f.smogIndex cs).settled, (f.colemanLiauIndex cs).settled,
    (f.automatedReadabilityIndex cs).settled, (f.linsearWrite cs).settled, (f.daleChall cs).settled,
    daleChallGrade (f.daleChall cs).settled, (f.gunningFog cs).settled, (f.lix cs).settled, (f.rix cs).settled]

theorem isFinite_settledScores [Regular α] : ∀ x ∈ settledScores f cs, Measure.isFinite x = true := by
  have hflesch := Regular.isFinite_literal _ (fleschGrade_mem (f.fleschReadingEase cs).settled)
  have hchall := Regular.isFinite_literal _ (daleChallGrade_mem (f.daleChall cs).settled)
  simp only [settledScores, List.forall_mem_cons, Outcome.isFinite_settled, hflesch, hchall, true_and]
  nofun

theorem settledGrades_subset : settledGrades f cs ⊆ settledScores f cs := by
  simp [settledGrades, settledScores]

variable [Add α] [Div α]

def settledTable : Table α := scoreNames.zip (settledScores f cs ++ [medianOfEight (settledGrades f cs)])

/-- The tables of a text if its outcomes are foreseen. -/
def settledStats [BEq α] : Stats α :=
  if Text.isAllBlank cs then .zero
  else if (settledCounts f cs).words == 0.0 then { (Stats.zero : Stats α) with counts := (settledCounts f cs).table }
  else ⟨(settledCounts f cs).table, (settledCounts f cs).averages, settledTable f cs⟩

end

variable [Add α] [Div α] {f : Formulas α} {cs : List Char}

theorem scoresOf_eq [Regular α] (h : ∀ o ∈ f.scoreOutcomes cs, o.Foreseen) :
    scoresOf f cs = .ok (settledTable f cs) := by
  simp only [Formulas.scoreOutcomes, List.forall_mem_cons] at h
  obtain ⟨h₁, h₂, h₃, h₄, h₅, h₆, h₇, h₈, h₉, h₁₀, h₁₁, -⟩ := h
  rw [scoresOf, h₁.settle_eq, h₂.settle_eq, h₃.settle_eq, h₄.settle_eq, h₅.settle_eq, h₆.settle_eq, h₇.settle_eq,
    h₈.settle_eq, h₉.settle_eq, h₁₀.settle_eq, h₁₁.settle_eq]
  rfl

theorem evaluateWith_eq [Regular α] [BEq α] (h : f.Foreseen cs) : evaluateWith f cs = .ok (settledStats f cs) := by
  have hcounts := counts_eq fun o ho => h o (List.mem_append_left _ ho)
  have hscores := scoresOf_eq fun o ho => h o (List.mem_append_right _ ho)
  rw [evaluateWith, settledStats, hcounts, hscores]
  simp only [bind, Except.bind, pure, Except.pure]
  split_ifs <;> rfl

theorem isFinite_settledTable [Regular α] (f : Formulas α) (cs : List Char) :
    ∀ entry ∈ settledTable f cs, entry.1 ≠ "text_median" → Measure.isFinite entry.2 = true := by
  have hzip : settledTable f cs = (scoreNames.take 13).zip (settledScores f cs) ++
      [("text_median", medianOfEight (settledGrades f cs))] := rfl
  intro entry hentry hname
  rw [hzip, List.mem_append] at hentry
  rcases hentry with hscore | hmedian
  · exact isFinite_settledScores f cs _ (List.of_mem_zip hscore).2
  · obtain rfl := List.mem_singleton.mp hmedian
    exact absurd rfl hname

theorem value_settledTable (counts averages : Table α) :
    gradeNames.map (Stats.value ⟨counts, averages, settledTable f cs⟩ .scores) = settledGrades f cs := by
  rfl

theorem textMedian_settledTable (counts averages : Table α) :
    Stats.textMedian ⟨counts, averages, settledTable f cs⟩ = medianOfEight (settledGrades f cs) := by
  rfl

theorem textMedian_settledStats [BEq α] (hblank : Text.isAllBlank cs = false)
    (hwords : ((settledCounts f cs).words == 0.0) = false) :
    (settledStats f cs).textMedian = medianOfEight (settledGrades f cs) := by
  simp only [settledStats, hblank, hwords, Bool.false_eq_true, if_false]
  exact textMedian_settledTable _ _

end Tables

section Complete

variable {α : Type} [OfScientific α]

theorem names_constant {α : Type} (names : List String) (x : α) : (Stats.constant names x).map (·.1) = names := by
  rw [Stats.constant, List.map_map]
  exact List.map_id names

variable [Measure α]

theorem isFinite_constant [Regular α] (names : List String) :
    ∀ entry ∈ (Stats.constant names 0.0 : Table α), Measure.isFinite entry.2 = true := by
  intro entry hentry
  obtain ⟨name, -, rfl⟩ := List.mem_map.mp hentry
  exact isFinite_zero

variable [BEq α]

/-- The tables of a text have all their names in order. All numbers are finite but perhaps the median, and 0 where there
is nothing to measure. -/
structure Stats.Complete (cs : List Char) (s : Stats α) : Prop where
  counts : s.counts.map (·.1) = countNames
  averages : s.averages.map (·.1) = averageNames
  scores : s.scores.map (·.1) = scoreNames
  finite_counts : ∀ entry ∈ s.counts, Measure.isFinite entry.2 = true
  finite_scores : ∀ entry ∈ s.scores, entry.1 ≠ "text_median" → Measure.isFinite entry.2 = true
  blank : Text.isAllBlank cs = true → s = .zero
  wordless : (s.value .counts "lexicon_count" == 0.0) = true →
    s.averages = Stats.constant averageNames 0.0 ∧ s.scores = Stats.constant scoreNames 0.0

theorem complete_zero [Regular α] (cs : List Char) : (Stats.zero : Stats α).Complete cs where
  counts := names_constant _ _
  averages := names_constant _ _
  scores := names_constant _ _
  finite_counts := isFinite_constant _
  finite_scores entry hentry _ := isFinite_constant _ entry hentry
  blank _ := rfl
  wordless _ := ⟨rfl, rfl⟩

variable [Add α] [Div α] [LE α] [DecidableLE α] [LT α] [DecidableLT α]

theorem complete_settledStats [Regular α] (f : Formulas α) (cs : List Char) : (settledStats f cs).Complete cs := by
  unfold settledStats
  split_ifs with hblank hwords
  · exact complete_zero cs
  · exact { complete_zero cs with
      counts := rfl
      finite_counts := isFinite_settledCounts f cs
      blank := fun h => absurd h hblank
      wordless := fun _ => ⟨rfl, rfl⟩ }
  · exact {
      counts := rfl
      averages := rfl
      scores := rfl
      finite_counts := isFinite_settledCounts f cs
      finite_scores := isFinite_settledTable f cs
      blank := fun h => absurd h hblank
      wordless := fun h => absurd h hwords }

end Complete

section Median

theorem ascending_perm {α : Type} [LE α] [DecidableLE α] (xs : List α) : (ascending xs).Perm xs :=
  List.mergeSort_perm xs _

theorem sortedLE_ascending (xs : List Rat) : (ascending xs).SortedLE :=
  (List.pairwise_mergeSort' (· ≤ ·) xs).sortedLE

theorem ascending_map_finite (xs : List Rat) : ascending (xs.map Exact.finite) = (ascending xs).map Exact.finite :=
  (List.map_mergeSort fun a _ b _ => by simp only [Exact.finite_le_finite]).symm

/-- The mean of two items of an ascending list lies between its first item and its last one, and so do all its items. -/
theorem mean_between {sorted : List Rat} (h : sorted.SortedLE) {i j : Nat} (hi : i < sorted.length)
    (hj : j < sorted.length) : ∃ least ∈ sorted, ∃ greatest ∈ sorted, (∀ x ∈ sorted, least ≤ x ∧ x ≤ greatest) ∧
      least ≤ (sorted[i] + sorted[j]) / 2 ∧ (sorted[i] + sorted[j]) / 2 ≤ greatest := by
  have hbounds : ∀ x ∈ sorted, sorted[0] ≤ x ∧ x ≤ sorted[sorted.length - 1] := by
    intro x hx
    obtain ⟨k, hk, rfl⟩ := List.getElem_of_mem hx
    exact ⟨h.getElem_le_getElem_of_le (Nat.zero_le k), h.getElem_le_getElem_of_le (by omega)⟩
  obtain ⟨hlow, hhigh⟩ := hbounds _ (List.getElem_mem hi)
  obtain ⟨hlow', hhigh'⟩ := hbounds _ (List.getElem_mem hj)
  exact ⟨_, List.getElem_mem _, _, List.getElem_mem _, hbounds, by linarith, by linarith⟩

theorem medianOfEight_between {grades : List Rat} (hlength : grades.length = 8) {k l : Rat}
    (h : ∀ x ∈ grades, k < x ∧ x < l) : k < medianOfEight grades ∧ medianOfEight grades < l := by
  have hperm := ascending_perm grades
  have hsorted : (ascending grades).length = 8 := hperm.length_eq.trans hlength
  have hbetween : ∀ x ∈ ascending grades, k < x ∧ x < l := fun x hx => h x (hperm.mem_iff.mp hx)
  have htwo : (2.0 : Rat) = 2 := by norm_num
  rw [medianOfEight]
  match ascending grades, hsorted, hbetween with
  | [_, _, _, a, b, _, _, _], _, hbetween =>
    obtain ⟨hka, hal⟩ := hbetween a (by simp)
    obtain ⟨hkb, hbl⟩ := hbetween b (by simp)
    change k < (a + b) / 2.0 ∧ (a + b) / 2.0 < l
    constructor <;> linarith

/-- The grade of a text with words: the mean of the fourth and the fifth of its eight grades in ascending order, which
lies between the least of them and the greatest. -/
def Stats.MedianOfGrades (s : Stats Exact) : Prop :=
  ∃ (grades sorted : List Rat) (a b median : Rat),
    gradeNames.map (s.value .scores) = grades.map .finite ∧ s.textMedian = .finite median ∧
      sorted.Perm grades ∧ sorted.SortedLE ∧ sorted[3]? = some a ∧ sorted[4]? = some b ∧ median = (a + b) / 2 ∧
      ∃ least ∈ grades, ∃ greatest ∈ grades, (∀ x ∈ grades, least ≤ x ∧ x ≤ greatest) ∧
        least ≤ median ∧ median ≤ greatest

theorem medianOfEight_map_finite {grades sorted : List Rat} (hsorted : ascending grades = sorted)
    (h : sorted.length = 8) : medianOfEight (grades.map Exact.finite) = .finite ((sorted[3] + sorted[4]) / 2) := by
  have htwo : (2.0 : Rat) = 2 := by norm_num
  rw [medianOfEight, ascending_map_finite, hsorted]
  match sorted, h with
  | [_, _, _, a, b, _, _, _], _ =>
    change (Exact.finite a + Exact.finite b) / Exact.finite (2.0 : Rat) = _
    rw [htwo, Exact.finite_add, Exact.finite_div (by decide)]
    rfl

theorem medianOfGrades_settledTable (f : Formulas Exact) (cs : List Char) (counts averages : Table Exact) :
    Stats.MedianOfGrades ⟨counts, averages, settledTable f cs⟩ := by
  obtain ⟨grades, hgrades⟩ := Exact.exists_map_finite fun x hx =>
    isFinite_settledScores f cs x (settledGrades_subset f cs hx)
  have hperm := ascending_perm grades
  have hlength : (ascending grades).length = 8 := by
    rw [hperm.length_eq, ← List.length_map Exact.finite, ← hgrades]
    rfl
  have hmedian := medianOfEight_map_finite rfl hlength
  obtain ⟨least, hleast, greatest, hgreatest, hbounds, hbetween⟩ :=
    mean_between (sortedLE_ascending grades) (i := 3) (j := 4) (by omega) (by omega)
  refine ⟨grades, ascending grades, _, _, _, ?_, ?_, hperm, sortedLE_ascending grades, List.getElem?_eq_getElem _,
    List.getElem?_eq_getElem _, rfl, least, hperm.mem_iff.mp hleast, greatest, hperm.mem_iff.mp hgreatest,
    fun x hx => hbounds x (hperm.mem_iff.mpr hx), hbetween⟩
  · rw [value_settledTable, hgrades]
  · rw [textMedian_settledTable, hgrades, hmedian]

/-- Whatever the formulas do, as long as each call comes to something foreseen, a text has complete tables with finite
numbers. Where sums are exact, the grade of a text with words is the median of its grades. -/
theorem evaluateWith_complete (cs : List Char) :
    (∀ f : Formulas Float, f.Foreseen cs → ∃ s, evaluateWith f cs = .ok s ∧ s.Complete cs) ∧
    (∀ f : Formulas Exact, f.Foreseen cs → ∃ s, evaluateWith f cs = .ok s ∧ s.Complete cs ∧
      (Text.isAllBlank cs = false → (s.value .counts "lexicon_count" == 0.0) = false → s.MedianOfGrades)) := by
  refine ⟨fun f hf => ⟨_, evaluateWith_eq hf, complete_settledStats f cs⟩, fun f hf => ?_⟩
  refine ⟨_, evaluateWith_eq hf, complete_settledStats f cs, fun hblank hwords => ?_⟩
  have hnotBlank : ¬ Text.isAllBlank cs = true := by simp [hblank]
  unfold settledStats at hwords ⊢
  rw [if_neg hnotBlank] at hwords ⊢
  split_ifs at hwords ⊢ with hnone
  · exact absurd hnone (Bool.eq_false_iff.mp hwords)
  · exact medianOfGrades_settledTable f cs _ _

/-- Formulas with outcomes of all sorts. -/
def mixedFormulas (α : Type) [OfScientific α] [Div α] : Formulas α where
  characters _ := .whole 3
  letters _ := .number (0.0 / 0.0)
  words _ := .whole 2
  syllables _ := .fault ⟨.zeroDivision, "float division by zero"⟩
  sentences _ := .nothing
  fleschReadingEase _ := .number 65.0
  fleschKincaidGrade _ := .number (1.0 / 0.0)
  polysyllables _ := .fault ⟨.value, "math domain error"⟩
  smogIndex _ := .whole 7
  colemanLiauIndex _ := .number 9.0
  automatedReadabilityIndex _ := .nothing
  linsearWrite _ := .number 12.5
  daleChall _ := .number 8.0
  gunningFog _ := .fault ⟨.index, "list index out of range"⟩
  lix _ := .whole (-4)
  rix _ := .fault ⟨.type, "a number is required"⟩

theorem mixedFormulas_foreseen (α : Type) [OfScientific α] [Div α] (cs : List Char) :
    (mixedFormulas α).Foreseen cs := by
  have hsmall : ∀ n ∈ [3, 2, 7, 4], n ≤ greatestDouble := fun n hn =>
    le_greatestDouble ((show ∀ n ∈ [3, 2, 7, 4], n ≤ 2 ^ 53 - 1 by decide) n hn)
  simp only [List.forall_mem_cons] at hsmall
  simp [Formulas.Foreseen, Formulas.countOutcomes, Formulas.scoreOutcomes, mixedFormulas, Outcome.Foreseen,
    foreseenCauses, hsmall]

theorem evaluateWith_complete_mixed :
    let cs := "a b".toList
    (mixedFormulas Float).Foreseen cs ∧ (mixedFormulas Exact).Foreseen cs ∧
      (∃ s, evaluateWith (mixedFormulas Float) cs = .ok s ∧ s.Complete cs) ∧
      ∃ s, evaluateWith (mixedFormulas Exact) cs = .ok s ∧ s.Complete cs ∧ s.MedianOfGrades ∧
        gradeNames.map (s.value .scores) = [0.0, 8.5, 7.0, 9.0, 0.0, 11.0, 12.5, 0.0] := by
  intro cs
  have hfloat := mixedFormulas_foreseen Float cs
  have hexact := mixedFormulas_foreseen Exact cs
  obtain ⟨hfloats, hexacts⟩ := evaluateWith_complete cs
  obtain ⟨s, hs, hcomplete, hmedian⟩ := hexacts _ hexact
  have hvalues : (evaluateWith (mixedFormulas Exact) cs).map (fun s =>
      (s.value .counts "lexicon_count" == 0.0, gradeNames.map (s.value .scores))) =
        .ok (false, [0.0, 8.5, 7.0, 9.0, 0.0, 11.0, 12.5, 0.0]) := by decide +kernel
  rw [hs] at hvalues
  obtain ⟨hwords, hgrades⟩ := Prod.mk.inj (Except.ok.inj hvalues)
  exact ⟨hfloat, hexact, hfloats _ hfloat, s, hs, hcomplete, hmedian (by decide) hwords, hgrades⟩

end Median

end CommentGrade.Readability
