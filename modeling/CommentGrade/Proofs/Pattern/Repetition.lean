import CommentGrade.Proofs.Pattern.Place

/-!
# Ways of a pattern

A match tries the ways of a pattern in order. Where what follows never fails, only the first way is tried: `Leads` says
where that way ends, and a greedy repetition ends where no further turn is possible. Where what follows may fail, a
reluctant repetition of arbitrary characters tries all later offsets in order.
-/
namespace CommentGrade

namespace Text

/-- Steps from an offset of a text to a later one. -/
def Advancing (length : Nat) (step : Nat → Option Nat) : Prop :=
  ∀ i j, step i = some j → i < j ∧ j ≤ length

/-- Where steps lead from an offset if they are taken as long as there is one. -/
def farthest (length : Nat) (step : Nat → Option Nat) (i : Nat) : Nat :=
  match step i with
  | some j => if i < j ∧ j ≤ length then farthest length step j else i
  | none => i
termination_by length - i
decreasing_by omega

section Farthest

variable {length : Nat} {step : Nat → Option Nat} {i j : Nat}

theorem farthest_of_none (h : step i = none) : farthest length step i = i := by
  rw [farthest, h]

theorem farthest_of_some (hstep : Advancing length step) (h : step i = some j) :
    farthest length step i = farthest length step j := by
  rw [farthest, h]
  exact if_pos (hstep i j h)

/-- What each step preserves holds at the end. -/
theorem farthest_induction {P : Nat → Prop} (hstep : ∀ i j, step i = some j → P i → P j)
    (hi : P i) : P (farthest length step i) := by
  induction i using farthest.induct length step with
  | case1 i j hj hlt ih =>
    rw [farthest, hj]
    simp only [hlt, and_self, if_true]
    exact ih (hstep i j hj hi)
  | case2 i j hj hlt =>
    rw [farthest, hj]
    simpa only [hlt, if_false] using hi
  | case3 i hj => rwa [farthest_of_none hj]

theorem le_farthest (hstep : Advancing length step) : i ≤ farthest length step i :=
  farthest_induction (P := fun j => i ≤ j)
    (fun j k hjk hij => Nat.le_of_lt (Nat.lt_of_le_of_lt hij (hstep j k hjk).1)) (Nat.le_refl i)

theorem farthest_le (hstep : Advancing length step) (hi : i ≤ length) :
    farthest length step i ≤ length :=
  farthest_induction (P := fun j => j ≤ length) (fun j k hjk _ => (hstep j k hjk).2) hi

theorem step_farthest (hstep : Advancing length step) : step (farthest length step i) = none := by
  induction i using farthest.induct length step with
  | case1 i j hj _ ih => rwa [farthest_of_some hstep hj]
  | case2 i j hj hlt => exact absurd (hstep i j hj) hlt
  | case3 i hj => rwa [farthest_of_none hj]

/-- Up to a bound that steps do not lead beyond, only the steps up to it matter. -/
theorem farthest_congr {bound : Nat} {step' : Nat → Option Nat} (hbound : bound ≤ length)
    (h : ∀ i ≤ bound, step i = step' i) (hstep : Advancing bound step') (hi : i ≤ bound) :
    farthest length step i = farthest bound step' i := by
  induction i using farthest.induct bound step' with
  | case1 i j hj hlt ih =>
    have hj' : step i = some j := (h i hi).trans hj
    have hlt' : i < j ∧ j ≤ length := ⟨hlt.1, Nat.le_trans hlt.2 hbound⟩
    rw [farthest_of_some hstep hj, ← ih hlt.2, farthest, hj']
    exact if_pos hlt'
  | case2 i j hj hlt => exact absurd (hstep i j hj) hlt
  | case3 i hj => rw [farthest_of_none hj, farthest_of_none ((h i hi).trans hj)]

theorem farthest_moved {distance : Nat} {step' : Nat → Option Nat}
    (h : ∀ i, step (distance + i) = (step' i).map (distance + ·)) :
    farthest (distance + length) step (distance + i) = distance + farthest length step' i := by
  induction i using farthest.induct length step' with
  | case1 i j hj hlt ih =>
    have hj' : step (distance + i) = some (distance + j) := by rw [h, hj, Option.map_some]
    have hlt' : distance + i < distance + j ∧ distance + j ≤ distance + length := by omega
    rw [farthest, hj', farthest, hj]
    simp only [hlt, hlt', and_self, if_true]
    exact ih
  | case2 i j hj hlt =>
    have hj' : step (distance + i) = some (distance + j) := by rw [h, hj, Option.map_some]
    have hlt' : ¬ (distance + i < distance + j ∧ distance + j ≤ distance + length) := by omega
    rw [farthest, hj', farthest, hj]
    simp only [hlt, hlt', if_false]
  | case3 i hj =>
    have hj' : step (distance + i) = none := by rw [h, hj, Option.map_none]
    rw [farthest_of_none hj', farthest_of_none hj]

end Farthest

/-- The step over an occurrence of a sequence of sets. -/
def stepOver (caseless : Bool) (sets : List CharSet) (cs : List Char) (i : Nat) : Option Nat :=
  if occursAt caseless sets cs i then some (i + sets.length) else none

theorem stepOver_cons (caseless : Bool) (s : CharSet) (sets : List CharSet) (cs : List Char) (i : Nat) :
    stepOver caseless (s :: sets) cs i =
      if cs[i]?.any (s.contains caseless) then stepOver caseless sets cs (i + 1) else none := by
  rw [stepOver, stepOver, occursAt_cons, List.length_cons, Nat.add_right_comm i 1, Nat.add_assoc]
  cases cs[i]?.any (s.contains caseless) <;> rfl

theorem advancing_stepOver (caseless : Bool) {sets : List CharSet} (hne : sets ≠ [])
    (cs : List Char) : Advancing cs.length (stepOver caseless sets cs) := by
  intro i j hj
  simp only [stepOver, Option.ite_none_right_eq_some, Option.some.injEq] at hj
  obtain ⟨h, rfl⟩ := hj
  have := List.length_pos_iff.mpr hne
  exact ⟨by omega, length_le_of_occursAt hne h⟩

theorem farthest_stepOver_set (caseless : Bool) (s : CharSet) (cs : List Char) (i : Nat) :
    farthest cs.length (stepOver caseless [s] cs) i = skip (s.contains caseless) cs i := by
  have hstep := advancing_stepOver caseless (List.cons_ne_nil s []) cs
  induction hrest : cs.drop i generalizing i with
  | nil =>
    have hnone : cs[i]? = none := by rw [← List.head?_drop, hrest, List.head?_nil]
    rw [farthest_of_none (by simp [stepOver, hnone])]
    simp [skip, hrest]
  | cons c rest ih =>
    have hc : cs[i]? = some c := by rw [← List.head?_drop, hrest, List.head?_cons]
    have htail : cs.drop (i + 1) = rest := by rw [← List.tail_drop, hrest, List.tail_cons]
    by_cases hs : s.contains caseless c = true
    · rw [farthest_of_some (j := i + 1) hstep (by simp [stepOver, hc, hs]), ih (i + 1) htail]
      simp only [skip, hrest, htail, List.takeWhile_cons, hs, if_true, List.length_cons]
      omega
    · rw [farthest_of_none (by simp [stepOver, hc, hs])]
      simp [skip, hrest, hs]

theorem stepOver_set_eq_none {caseless : Bool} {s : CharSet} {cs : List Char} {i : Nat}
    (h : skip (s.contains caseless) cs i = i) : stepOver caseless [s] cs i = none := by
  have hstep := advancing_stepOver caseless (List.cons_ne_nil s []) cs
  have hnone := step_farthest hstep (i := i)
  rwa [farthest_stepOver_set, h] at hnone

end Text

namespace Pattern

open Text

variable {α : Type} {caseless everyLine : Bool} {cs : List Char}

/-- A pattern whose first way leads where a step leads, and which fails where there is no step. What follows must not
fail at the end of that way, and may use the spans that have been remembered. -/
structure Leads (caseless everyLine : Bool) (cs : List Char) (p : Pattern)
    (step : Nat → Option Nat) : Prop where
  run_eq : ∀ {α : Type} (i : Nat) (caps : Captures) (next : Next α),
    (∀ j caps', step i = some j → (next (.inText cs j) caps').isSome) →
    ∃ caps', p.run caseless everyLine (.inText cs i) caps next =
      (step i).bind fun j => next (.inText cs j) caps'

theorem Reads.leads {p : Pattern} {sets : List CharSet} (hp : Reads caseless everyLine p sets) :
    Leads caseless everyLine cs p (stepOver caseless sets cs) := by
  refine ⟨?_⟩
  intro α i caps next _
  refine ⟨caps, ?_⟩
  rw [hp.run_eq, stepOver]
  cases occursAt caseless sets cs i <;> rfl

section Step

variable {p : Pattern} {step : Nat → Option Nat} {i j : Nat}

/-- Where there is no step, a pattern fails whatever follows. -/
theorem Leads.run_eq_none (hp : Leads caseless everyLine cs p step) (h : step i = none) (caps : Captures)
    (next : Next α) : p.run caseless everyLine (.inText cs i) caps next = none := by
  obtain ⟨_, hrun⟩ := hp.run_eq i caps next (by simp [h])
  rw [hrun, h, Option.bind_none]

/-- Where there is a step, what cannot fail behind it follows it. -/
theorem Leads.run_eq_some (hp : Leads caseless everyLine cs p step) (h : step i = some j) (caps : Captures)
    (next : Next α) (hnext : ∀ caps', (next (.inText cs j) caps').isSome) :
    ∃ caps', p.run caseless everyLine (.inText cs i) caps next = next (.inText cs j) caps' := by
  have htotal : ∀ k caps', step i = some k → (next (.inText cs k) caps').isSome := by
    intro k caps' hk
    have hjk : j = k := Option.some.inj (h.symm.trans hk)
    exact hjk ▸ hnext caps'
  obtain ⟨caps', hrun⟩ := hp.run_eq i caps next htotal
  exact ⟨caps', by rw [hrun, h, Option.bind_some]⟩

end Step

theorem Leads.group {p : Pattern} {step : Nat → Option Nat}
    (hp : Leads caseless everyLine cs p step) (index : Nat) :
    Leads caseless everyLine cs (.group index p) step := by
  refine ⟨?_⟩
  intro α i caps next hnext
  obtain ⟨caps', h⟩ := hp.run_eq i caps (fun cur' caps' =>
    next cur' ((index, ⟨i, cur'.offset⟩) :: caps')) (fun j _ hj => hnext j _ hj)
  cases hj : step i with
  | none => exact ⟨[], by rw [run, Cursor.inText_offset, h, hj]; rfl⟩
  | some j =>
    refine ⟨(index, ⟨i, j⟩) :: caps', ?_⟩
    rw [run, Cursor.inText_offset, h, hj]
    rfl

theorem Leads.alt {p q : Pattern} {f g : Nat → Option Nat}
    (hp : Leads caseless everyLine cs p f) (hq : Leads caseless everyLine cs q g) :
    Leads caseless everyLine cs (.alt p q) fun i => (f i).or (g i) := by
  refine ⟨?_⟩
  intro α i caps next hnext
  cases hf : f i with
  | none =>
    obtain ⟨caps', h⟩ := hq.run_eq i caps next (fun j caps'' hj => hnext j caps'' (by simp [hf, hj]))
    refine ⟨caps', ?_⟩
    rw [run, hp.run_eq_none hf, h]
    rfl
  | some j =>
    have htotal : ∀ caps'', (next (.inText cs j) caps'').isSome :=
      fun caps'' => hnext j caps'' (by simp [hf])
    obtain ⟨caps', h⟩ := hp.run_eq_some hf caps next htotal
    refine ⟨caps', ?_⟩
    rw [run, h]
    exact Option.or_of_isSome (htotal caps')

theorem Leads.seq {p q : Pattern} {f : Nat → Option Nat} {g : Nat → Nat}
    (hp : Leads caseless everyLine cs p f) (hq : Leads caseless everyLine cs q fun i => some (g i)) :
    Leads caseless everyLine cs (.seq p q) fun i => (f i).map g := by
  refine ⟨?_⟩
  intro α i caps next hnext
  cases hj : f i with
  | none => exact ⟨[], by rw [run, hp.run_eq_none hj]; rfl⟩
  | some j =>
    have htotal : ∀ caps', (next (.inText cs (g j)) caps').isSome :=
      fun caps' => hnext (g j) caps' (by simp [hj])
    have hrest : ∀ caps', (q.run caseless everyLine (.inText cs j) caps' next).isSome := by
      intro caps'
      obtain ⟨caps'', h⟩ := hq.run_eq_some rfl caps' next htotal
      exact h ▸ htotal caps''
    obtain ⟨caps', h⟩ := hp.run_eq_some hj caps (fun cur' caps' => q.run caseless everyLine cur' caps' next) hrest
    obtain ⟨caps'', hc⟩ := hq.run_eq_some rfl caps' next htotal
    exact ⟨caps'', by rw [run, h, hc]; rfl⟩

theorem greedy_of_total {p : Pattern} {step : Nat → Option Nat}
    (hp : Leads caseless everyLine cs p step) (hstep : Advancing cs.length step)
    {next : Next α} {i : Nat}
    (hnext : ∀ caps, (next (.inText cs (farthest cs.length step i)) caps).isSome)
    {n : Nat} (hn : cs.length - i ≤ n) (caps : Captures) :
    ∃ caps', greedy (p.run caseless everyLine) n (.inText cs i) caps next =
      next (.inText cs (farthest cs.length step i)) caps' := by
  induction n generalizing i caps with
  | zero =>
    cases hj : step i with
    | none => exact ⟨caps, by rw [greedy, farthest_of_none hj]⟩
    | some j =>
      have := hstep i j hj
      omega
  | succ n ih =>
    let again : Next α := fun cur' caps' =>
      if i < cur'.offset then greedy (p.run caseless everyLine) n cur' caps' next else none
    have hgreedy : greedy (p.run caseless everyLine) (n + 1) (.inText cs i) caps next =
      (p.run caseless everyLine (.inText cs i) caps again).or (next (.inText cs i) caps) := rfl
    cases hj : step i with
    | none => exact ⟨caps, by rw [hgreedy, hp.run_eq_none hj, farthest_of_none hj, Option.none_or]⟩
    | some j =>
      have hlt := hstep i j hj
      have hend := farthest_of_some hstep hj
      rw [hend] at hnext ⊢
      have hagain : ∀ caps', ∃ caps'', again (.inText cs j) caps' =
          next (.inText cs (farthest cs.length step j)) caps'' := by
        intro caps'
        obtain ⟨caps'', h⟩ := ih hnext (by omega) caps'
        exact ⟨caps'', by simp only [again, Cursor.inText_offset, hlt.1, if_true, h]⟩
      have htotal : ∀ caps', (again (.inText cs j) caps').isSome := by
        intro caps'
        obtain ⟨caps'', h⟩ := hagain caps'
        exact h ▸ hnext caps''
      obtain ⟨caps', h⟩ := hp.run_eq_some hj caps again htotal
      obtain ⟨caps'', hc⟩ := hagain caps'
      refine ⟨caps'', ?_⟩
      rw [hgreedy, h, hc]
      exact Option.or_of_isSome (hnext caps'')

theorem Leads.star {p : Pattern} {step : Nat → Option Nat}
    (hp : Leads caseless everyLine cs p step) (hstep : Advancing cs.length step) :
    Leads caseless everyLine cs (.star p false) fun i => some (farthest cs.length step i) := by
  refine ⟨?_⟩
  intro α i caps next hnext
  obtain ⟨caps', h⟩ := greedy_of_total hp hstep (fun c => hnext _ c rfl)
    (Nat.le_of_eq (Cursor.inText_rest_length cs i).symm) caps
  exact ⟨caps', by simpa only [run, Bool.false_eq_true, if_false, Option.bind_some] using h⟩

theorem Leads.plus {p : Pattern} {step : Nat → Option Nat}
    (hp : Leads caseless everyLine cs p step) (hstep : Advancing cs.length step) :
    Leads caseless everyLine cs (.plus p) fun i => (step i).map (farthest cs.length step) :=
  ⟨(hp.seq (hp.star hstep)).run_eq⟩

/-- A pattern that has one way to match at an offset, the empty one, whatever follows. -/
structure Stays (caseless everyLine : Bool) (cs : List Char) (i : Nat) (p : Pattern) : Prop where
  run_eq : ∀ {α : Type} (caps : Captures) (next : Next α),
    ∃ caps', p.run caseless everyLine (.inText cs i) caps next = next (.inText cs i) caps'

theorem stays_empty {i : Nat} : Stays caseless everyLine cs i .empty := by
  refine ⟨?_⟩
  intro α caps next
  exact ⟨caps, rfl⟩

theorem Stays.group {p : Pattern} {i : Nat} (hp : Stays caseless everyLine cs i p) (index : Nat) :
    Stays caseless everyLine cs i (.group index p) := by
  refine ⟨?_⟩
  intro α caps next
  obtain ⟨caps', h⟩ := hp.run_eq caps fun cur' caps' => next cur' ((index, ⟨i, cur'.offset⟩) :: caps')
  exact ⟨_, h⟩

theorem Stays.seq {p q : Pattern} {i : Nat} (hp : Stays caseless everyLine cs i p)
    (hq : Stays caseless everyLine cs i q) : Stays caseless everyLine cs i (.seq p q) := by
  refine ⟨?_⟩
  intro α caps next
  obtain ⟨caps', h₁⟩ := hp.run_eq caps fun cur' caps' => q.run caseless everyLine cur' caps' next
  obtain ⟨caps'', h₂⟩ := hq.run_eq caps' next
  exact ⟨caps'', by rw [run, h₁, h₂]⟩

theorem Leads.stays_star {p : Pattern} {step : Nat → Option Nat}
    (hp : Leads caseless everyLine cs p step) {i : Nat} (h : step i = none) :
    Stays caseless everyLine cs i (.star p false) := by
  refine ⟨?_⟩
  intro α caps next
  refine ⟨caps, ?_⟩
  simp only [run, Bool.false_eq_true, if_false]
  cases (Cursor.inText cs i).rest.length with
  | zero => rfl
  | succ n => rw [greedy, hp.run_eq_none h, Option.none_or]

end Pattern

end CommentGrade
