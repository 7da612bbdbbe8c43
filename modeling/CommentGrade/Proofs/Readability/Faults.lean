import CommentGrade.Proofs.Readability.Tables
import CommentGrade.Proofs.Value.Results

/-!
# Formulas that fail

An outcome without a number is passed on as a fault in two cases: a failure whose cause is not foreseen, and a whole
number beyond the range of doubles. All other outcomes settle to a finite number. The formulas are called one after
the other, first the counts and then, if there are words, the scores, and the first fault that is passed on is what
the evaluation of the text comes to.
-/
namespace CommentGrade.Readability

open Number

/-- The fault that is passed on in the place of a number. -/
inductive Outcome.Escapes : Outcome Float → Fault → Prop
  | whole {n : Int} : overflowBound ≤ n.natAbs → Escapes (.whole n) .tooLarge
  | fault {f : Fault} : f.cause ∉ foreseenCauses → Escapes (.fault f) f

/-- No fault is passed on. -/
def Outcome.Settles (o : Outcome Float) : Prop := ∀ e, ¬o.Escapes e

theorem undefinedHere_iff (c : Cause) : c.undefinedHere = true ↔ c ∈ foreseenCauses := by
  cases c <;> simp [Cause.undefinedHere, foreseenCauses]

theorem Outcome.Escapes.settle_eq {o : Outcome Float} {e : Fault} (h : o.Escapes e) : o.settle = .error e := by
  cases h with
  | whole hn => simp only [settle, ofInt?_eq_none hn]
  | fault hf => simp only [settle, undefinedHere_iff, hf, if_false]

theorem Outcome.Settles.settle_eq {o : Outcome Float} (h : o.Settles) : o.settle = .ok o.settled := by
  cases o with
  | number x => rfl
  | whole n =>
    have hn : n.natAbs < overflowBound := Nat.lt_of_not_le fun hn => h _ (.whole hn)
    obtain ⟨x, hx, -⟩ := exists_ofInt?_isFinite hn
    simp only [settled, settle, hx]
  | nothing => rfl
  | fault f =>
    have hf : f.cause ∈ foreseenCauses := by_contra fun hf => h _ (.fault hf)
    simp only [settled, settle, undefinedHere_iff, hf, if_true]

theorem Outcome.settles_or_escapes (o : Outcome Float) : o.Settles ∨ ∃ e, o.Escapes e := by
  rw [or_iff_not_imp_right, not_exists]
  exact id

theorem Outcome.settle_eq_error_iff {o : Outcome Float} {e : Fault} : o.settle = .error e ↔ o.Escapes e := by
  refine ⟨fun h => ?_, Escapes.settle_eq⟩
  rcases o.settles_or_escapes with hsettles | ⟨e', he⟩
  · rw [hsettles.settle_eq] at h
    cases h
  · rw [he.settle_eq] at h
    cases h
    exact he

theorem Outcome.settle_eq_ok_iff {o : Outcome Float} {x : Float} : o.settle = .ok x ↔ o.Settles ∧ o.settled = x := by
  constructor
  · intro h
    have hsettles : o.Settles := fun e he => nomatch he.settle_eq.symm.trans h
    exact ⟨hsettles, Except.ok.inj (hsettles.settle_eq.symm.trans h)⟩
  · rintro ⟨h, rfl⟩
    exact h.settle_eq

/-- The fault of the first outcome of a list that passes one on. -/
inductive FirstFault : List (Outcome Float) → Fault → Prop
  | here {o : Outcome Float} {os : List (Outcome Float)} {e : Fault} : o.Escapes e → FirstFault (o :: os) e
  | later {o : Outcome Float} {os : List (Outcome Float)} {e : Fault} : o.Settles → FirstFault os e →
      FirstFault (o :: os) e

@[simp] theorem not_firstFault_nil {e : Fault} : ¬FirstFault [] e := nofun

@[simp] theorem firstFault_cons {o : Outcome Float} {os : List (Outcome Float)} {e : Fault} :
    FirstFault (o :: os) e ↔ o.Escapes e ∨ o.Settles ∧ FirstFault os e := by
  constructor
  · rintro (h | ⟨hs, h⟩)
    · exact .inl h
    · exact .inr ⟨hs, h⟩
  · rintro (h | ⟨hs, h⟩)
    · exact .here h
    · exact .later hs h

section Evaluation

variable {f : Formulas Float} {cs : List Char}

theorem counts_eq_error_iff {e : Fault} : Counts.of f cs = .error e ↔ FirstFault (f.countOutcomes cs) e := by
  simp [Counts.of, Formulas.countOutcomes, bind_eq_error_iff, Outcome.settle_eq_error_iff, Outcome.settle_eq_ok_iff,
    and_assoc, pure, Except.pure]

theorem counts_eq_ok_iff {c : Counts Float} :
    Counts.of f cs = .ok c ↔ (∀ o ∈ f.countOutcomes cs, o.Settles) ∧ settledCounts f cs = c := by
  simp [Counts.of, Formulas.countOutcomes, settledCounts, bind_eq_ok_iff, Outcome.settle_eq_ok_iff, and_assoc, pure,
    Except.pure]

theorem scoresOf_eq_error_iff {e : Fault} : scoresOf f cs = .error e ↔ FirstFault (f.scoreOutcomes cs) e := by
  simp [scoresOf, Formulas.scoreOutcomes, bind_eq_error_iff, Outcome.settle_eq_error_iff, Outcome.settle_eq_ok_iff,
    and_assoc, pure, Except.pure]

theorem scoresOf_eq_ok_iff {t : Table Float} :
    scoresOf f cs = .ok t ↔ (∀ o ∈ f.scoreOutcomes cs, o.Settles) ∧ settledTable f cs = t := by
  simp [scoresOf, Formulas.scoreOutcomes, settledTable, settledScores, settledGrades, bind_eq_ok_iff,
    Outcome.settle_eq_ok_iff, and_assoc, pure, Except.pure]

/-- Why an evaluation fails: a count does, or the counts settle, there are words, and a score does. -/
def FailsWith (f : Formulas Float) (cs : List Char) (e : Fault) : Prop :=
  Text.isAllBlank cs = false ∧
    (FirstFault (f.countOutcomes cs) e ∨
      (∀ o ∈ f.countOutcomes cs, o.Settles) ∧ ((f.words cs).settled == 0.0) = false ∧
        FirstFault (f.scoreOutcomes cs) e)

theorem evaluateWith_eq_error_iff {e : Fault} : evaluateWith f cs = .error e ↔ FailsWith f cs e := by
  unfold evaluateWith FailsWith
  cases Text.isAllBlank cs with
  | true => simp
  | false =>
    simp only [Bool.false_eq_true, if_false, bind_eq_error_iff, counts_eq_error_iff, counts_eq_ok_iff, and_assoc,
      exists_and_left, exists_eq_left', settledCounts]
    cases (f.words cs).settled == 0.0 <;>
      simp [bind_eq_error_iff, scoresOf_eq_error_iff, pure, Except.pure]

theorem eq_settledStats {s : Stats Float} (h : evaluateWith f cs = .ok s) : s = settledStats f cs := by
  unfold evaluateWith at h
  unfold settledStats
  cases hblank : Text.isAllBlank cs with
  | true => simpa [hblank] using h.symm
  | false =>
    simp only [hblank, Bool.false_eq_true, if_false, bind_eq_ok_iff, counts_eq_ok_iff, and_assoc, exists_and_left,
      exists_eq_left'] at h
    obtain ⟨-, h⟩ := h
    cases hwords : (settledCounts f cs).words == 0.0 with
    | true => simpa [hwords, pure, Except.pure] using h.symm
    | false =>
      simp only [hwords, Bool.false_eq_true, if_false, bind_eq_ok_iff, scoresOf_eq_ok_iff, and_assoc, exists_and_left,
        exists_eq_left'] at h
      simpa [hwords, pure, Except.pure] using h.2.symm

end Evaluation

/-- An outcome settles to a finite number exactly if it does not escape: what formulas return beyond the range of doubles,
and failures with other causes than the foreseen ones, are passed on as they are. An evaluation fails with the first
fault that the formulas it calls pass on, and gives complete tables if there is none. -/
theorem evaluateWith_fails_iff (f : Formulas Float) (cs : List Char) :
    (∀ o : Outcome Float, (∀ e, o.settle = .error e ↔ o.Escapes e) ∧
      (o.Settles ↔ ∃ x, o.settle = .ok x ∧ Measure.isFinite x = true)) ∧
    (∀ e, evaluateWith f cs = .error e ↔ FailsWith f cs e) ∧
    ((∀ e, ¬FailsWith f cs e) ↔ ∃ s, evaluateWith f cs = .ok s ∧ s.Complete cs) := by
  refine ⟨fun o => ⟨fun e => Outcome.settle_eq_error_iff, ?_⟩, fun e => evaluateWith_eq_error_iff, ?_⟩
  · constructor
    · intro h
      exact ⟨_, h.settle_eq, o.isFinite_settled⟩
    · rintro ⟨x, hx, -⟩ e he
      rw [he.settle_eq] at hx
      cases hx
  · constructor
    · intro h
      cases hresult : evaluateWith f cs with
      | error e => exact absurd (evaluateWith_eq_error_iff.mp hresult) (h e)
      | ok s => exact ⟨s, rfl, eq_settledStats hresult ▸ complete_settledStats f cs⟩
    · rintro ⟨s, hs, -⟩ e he
      rw [evaluateWith_eq_error_iff.mpr he] at hs
      cases hs

/-- What a formula may come to that returns any number or nothing, or fails for an arithmetic reason, for a value that it
cannot take, or for an index. -/
def Outcome.Ordinary : Outcome Float → Prop
  | .number _ | .whole _ | .nothing => True
  | .fault f => f.cause ∈ [.zeroDivision, .overflow, .floatingPoint, .value, .type, .index]

/-- Not every such outcome settles, and not every text is evaluated with formulas that come to one. -/
theorem ordinary_escapes :
    let power : Outcome Float := .fault ⟨.overflow, "math range error"⟩
    let signal : Outcome Float := .fault ⟨.floatingPoint, "underflow"⟩
    let large : Outcome Float := .whole (10 ^ 400)
    (power.Ordinary ∧ power.settle = .error ⟨.overflow, "math range error"⟩) ∧
    (signal.Ordinary ∧ signal.settle = .error ⟨.floatingPoint, "underflow"⟩) ∧
    (large.Ordinary ∧ large.settle = .error .tooLarge) ∧
    evaluateWith { mixedFormulas Float with characters := fun _ => large } "a b".toList = .error .tooLarge := by
  intro power signal large
  have hpow : ∀ d, Int.natAbs (10 ^ d) = 10 ^ d := fun d => Int.natAbs_pow 10 d
  have hbound : overflowBound ≤ Int.natAbs (10 ^ 400) := (Nat.le_of_lt overflowBound_lt).trans_eq (hpow 400).symm
  have hlarge : large.settle = .error .tooLarge := (Outcome.Escapes.whole hbound).settle_eq
  refine ⟨⟨by simp [power, Outcome.Ordinary], rfl⟩, ⟨by simp [signal, Outcome.Ordinary], rfl⟩, ⟨trivial, hlarge⟩, ?_⟩
  exact evaluateWith_eq_error_iff.mpr ⟨by decide, .inl (.here (Outcome.settle_eq_error_iff.mp hlarge))⟩

end CommentGrade.Readability
