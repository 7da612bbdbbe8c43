import CommentGrade.Proofs.Pattern.Place
import Mathlib.Data.Nat.Find
import Mathlib.Tactic.SplitIfs

/-!
# Giving back

Where what follows a repetition may fail, a match goes back. A reluctant repetition of arbitrary characters tries the
later offsets in order. A greedy repetition of one unit gives units back until what follows succeeds; if success is not
lost by starting earlier, it keeps the greatest number of units behind which there is success.
-/
namespace CommentGrade

namespace Text

/-- A number of copies of a sequence of sets at an offset, with something possible behind them. -/
def Copies (sets : List CharSet) (possible : Nat → Bool) (cs : List Char) (o k : Nat) : Prop :=
  (∀ j < k, occursAt false sets cs (o + j * sets.length) = true) ∧
    possible (o + k * sets.length) = true

instance (sets : List CharSet) (possible : Nat → Bool) (cs : List Char) (o : Nat) :
    DecidablePred (Copies sets possible cs o) := fun k =>
  inferInstanceAs (Decidable ((∀ j < k, _) ∧ _))

/-- The greatest number of copies behind which something is possible. No text has more copies than characters. -/
def mostCopies (sets : List CharSet) (possible : Nat → Bool) (cs : List Char) (o : Nat) : Nat :=
  Nat.findGreatest (Copies sets possible cs o) cs.length

section Copies

variable {sets : List CharSet} {possible : Nat → Bool} {cs : List Char} {o k : Nat}

theorem Copies.le_length (hne : sets ≠ []) (h : Copies sets possible cs o k) : k ≤ cs.length := by
  cases k with
  | zero => exact Nat.zero_le _
  | succ k =>
    have hlast := length_le_of_occursAt hne (h.1 k (Nat.lt_succ_self k))
    have hpos := List.length_pos_iff.mpr hne
    have hmul : k ≤ k * sets.length := Nat.le_mul_of_pos_right k hpos
    omega

theorem Copies.offset_le (hne : sets ≠ []) (ho : o ≤ cs.length) (h : Copies sets possible cs o k) :
    o + k * sets.length ≤ cs.length := by
  cases k with
  | zero => simpa using ho
  | succ k =>
    have hlast := length_le_of_occursAt hne (h.1 k (Nat.lt_succ_self k))
    rw [Nat.add_mul, Nat.one_mul]
    omega

theorem Copies.le_most (hne : sets ≠ []) (h : Copies sets possible cs o k) :
    k ≤ mostCopies sets possible cs o := Nat.le_findGreatest (h.le_length hne) h

theorem copies_most (hne : sets ≠ []) (h : Copies sets possible cs o k) :
    Copies sets possible cs o (mostCopies sets possible cs o) :=
  Nat.findGreatest_spec (h.le_length hne) h

/-- Fewer copies do as well, if what is possible later is possible before. -/
theorem Copies.of_le (hanti : ∀ i j, i ≤ j → possible j = true → possible i = true) {l : Nat}
    (h : Copies sets possible cs o l) (hkl : k ≤ l) : Copies sets possible cs o k := by
  refine ⟨fun j hj => h.1 j (by omega), hanti _ _ ?_ h.2⟩
  exact Nat.add_le_add_left (Nat.mul_le_mul_right _ hkl) o

theorem copies_succ_iff : Copies sets possible cs o (k + 1) ↔
    occursAt false sets cs o = true ∧ Copies sets possible cs (o + sets.length) k := by
  have hmul : ∀ j, o + sets.length + j * sets.length = o + (j + 1) * sets.length := by
    intro j
    rw [Nat.add_mul, Nat.one_mul]
    omega
  simp only [Copies, hmul]
  constructor
  · intro h
    refine ⟨?_, fun j hj => h.1 (j + 1) (by omega), h.2⟩
    simpa using h.1 0 (Nat.succ_pos k)
  · intro h
    refine ⟨?_, h.2.2⟩
    intro j hj
    cases j with
    | zero => simpa using h.1
    | succ j => exact h.2.1 j (by omega)

theorem copies_one_iff : Copies sets possible cs o 1 ↔
    occursAt false sets cs o = true ∧ possible (o + sets.length) = true := by
  simp [Copies]

theorem most_eq_of_not_succ (hanti : ∀ i j, i ≤ j → possible j = true → possible i = true)
    (hne : sets ≠ []) (h : Copies sets possible cs o k) (hsucc : ¬ Copies sets possible cs o (k + 1)) :
    mostCopies sets possible cs o = k := by
  apply Nat.le_antisymm
  · by_contra hlt
    exact hsucc ((copies_most hne h).of_le hanti (by omega))
  · exact h.le_most hne

theorem most_eq_one (hanti : ∀ i j, i ≤ j → possible j = true → possible i = true) (hne : sets ≠ [])
    (hone : Copies sets possible cs o 1) (hnext : ¬ Copies sets possible cs (o + sets.length) 1) :
    mostCopies sets possible cs o = 1 :=
  most_eq_of_not_succ hanti hne hone fun h => hnext (copies_succ_iff.mp h).2

theorem most_eq_succ (hanti : ∀ i j, i ≤ j → possible j = true → possible i = true) (hne : sets ≠ [])
    (hone : Copies sets possible cs o 1) (hnext : Copies sets possible cs (o + sets.length) 1) :
    mostCopies sets possible cs o = mostCopies sets possible cs (o + sets.length) + 1 := by
  have hmost := copies_most hne hnext
  apply most_eq_of_not_succ hanti hne
  · exact copies_succ_iff.mpr ⟨(copies_one_iff.mp hone).1, hmost⟩
  · intro h
    have hle := (copies_succ_iff.mp h).2.le_most hne
    omega

end Copies

end Text

namespace Pattern

open Text

variable {α : Type} {everyLine : Bool} {cs : List Char}

section Units

variable {p : Pattern} {sets : List CharSet} {possible : Nat → Bool} {next : Next α}

theorem greedy_units_eq_none (hp : Reads false everyLine p sets) (index : Nat)
    (hne : sets ≠ [])
    (hnext : ∀ i caps, i ≤ cs.length → (next (.inText cs i) caps).isSome = possible i)
    (hanti : ∀ i j, i ≤ j → possible j = true → possible i = true) {i : Nat}
    (hi : i ≤ cs.length) (himpossible : possible i = false) (n : Nat) (caps : Captures) :
    greedy ((group index p).run false everyLine) n (.inText cs i) caps next = none := by
  induction n generalizing i caps with
  | zero =>
    rw [greedy, ← Option.not_isSome_iff_eq_none, hnext i caps hi, himpossible]
    exact Bool.false_ne_true
  | succ n ih =>
    have hstop : next (.inText cs i) caps = none := by
      rw [← Option.not_isSome_iff_eq_none, hnext i caps hi, himpossible]
      exact Bool.false_ne_true
    have hlater : possible (i + sets.length) = false := by
      rw [← Bool.not_eq_true]
      intro hj
      rw [hanti i _ (Nat.le_add_right _ _) hj] at himpossible
      exact Bool.noConfusion himpossible
    rw [greedy, hstop, Option.or_none, run, hp.run_eq]
    split_ifs with hocc hlt
    · exact ih (length_le_of_occursAt hne hocc) hlater _
    · rfl
    · rfl

/-- From some units on, a greedy repetition ends behind the greatest number of them. -/
theorem greedy_units_eq (hp : Reads false everyLine p sets) (hne : sets ≠ []) (index : Nat)
    (hnext : ∀ i caps, i ≤ cs.length → (next (.inText cs i) caps).isSome = possible i)
    (hanti : ∀ i j, i ≤ j → possible j = true → possible i = true) {o k : Nat}
    (ho : o ≤ cs.length) (hk : Copies sets possible cs o k) {n : Nat} (hn : cs.length - (o + k * sets.length) ≤ n)
    (caps : Captures) :
    ∃ caps', greedy ((group index p).run false everyLine) n
        (.inText cs (o + k * sets.length)) caps next =
      next (.inText cs (o + mostCopies sets possible cs o * sets.length)) caps' := by
  have hpos := List.length_pos_iff.mpr hne
  have hmul : ∀ l, o + (l + 1) * sets.length = o + l * sets.length + sets.length := by
    intro l
    rw [Nat.add_mul, Nat.one_mul, Nat.add_assoc]
  -- `k` units have been taken, and what follows would succeed behind them
  induction n generalizing k caps with
  | zero =>
    have hlast : ¬ Copies sets possible cs o (k + 1) := by
      intro h
      have := length_le_of_occursAt hne (h.1 k (Nat.lt_succ_self k))
      omega
    exact ⟨caps, by rw [most_eq_of_not_succ hanti hne hk hlast]; rfl⟩
  | succ n ih =>
    rw [greedy, run, hp.run_eq]
    by_cases hocc : occursAt false sets cs (o + k * sets.length) = true
    · have hlt : o + k * sets.length < o + k * sets.length + sets.length := by omega
      simp only [hocc, if_true, Cursor.inText_offset, hlt]
      rw [← hmul]
      by_cases hmore : possible (o + (k + 1) * sets.length) = true
      · have hk' : Copies sets possible cs o (k + 1) := by
          refine ⟨?_, hmore⟩
          intro j hj
          rcases Nat.lt_succ_iff_lt_or_eq.mp hj with hj | rfl
          · exact hk.1 j hj
          · exact hocc
        have hless := hmul k
        obtain ⟨caps', h⟩ := ih hk' (by omega)
          ((index, ⟨o + k * sets.length, o + (k + 1) * sets.length⟩) :: caps)
        refine ⟨caps', ?_⟩
        rw [h]
        apply Option.or_of_isSome
        have hmost := copies_most hne hk
        rw [hnext _ _ (hmost.offset_le hne ho)]
        exact hmost.2
      · have hlast : ¬ Copies sets possible cs o (k + 1) := fun h => hmore h.2
        refine ⟨caps, ?_⟩
        have hle := length_le_of_occursAt hne hocc
        have hnone := greedy_units_eq_none hp index hne hnext hanti (hmul k ▸ hle) (Bool.not_eq_true _ ▸ hmore)
        rw [hnone, Option.none_or, most_eq_of_not_succ hanti hne hk hlast]
    · have hlast : ¬ Copies sets possible cs o (k + 1) :=
        fun h => hocc (h.1 k (Nat.lt_succ_self k))
      refine ⟨caps, ?_⟩
      rw [if_neg hocc, Option.none_or, most_eq_of_not_succ hanti hne hk hlast]

theorem run_plus_units (hp : Reads false everyLine p sets) (hne : sets ≠ []) (index : Nat)
    (hnext : ∀ i caps, i ≤ cs.length → (next (.inText cs i) caps).isSome = possible i)
    (hanti : ∀ i j, i ≤ j → possible j = true → possible i = true) {o : Nat} (ho : o ≤ cs.length)
    (caps : Captures) :
    ∃ caps', (plus (group index p)).run false everyLine (.inText cs o) caps next =
      if Copies sets possible cs o 1 then
        next (.inText cs (o + mostCopies sets possible cs o * sets.length)) caps'
      else none := by
  simp only [run, hp.run_eq, Cursor.inText_offset, Cursor.inText_rest_length]
  have hiff : Copies sets possible cs o 1 ↔
      occursAt false sets cs o = true ∧ possible (o + sets.length) = true := copies_one_iff
  by_cases hocc : occursAt false sets cs o = true
  · rw [if_pos hocc]
    by_cases hpos : possible (o + sets.length) = true
    · have hone := hiff.mpr ⟨hocc, hpos⟩
      have h := greedy_units_eq hp hne index hnext hanti ho hone
        (n := cs.length - (o + sets.length)) (by omega)
        ((index, ⟨o, o + sets.length⟩) :: caps)
      rw [Nat.one_mul] at h
      simpa only [hone, if_true, run] using h
    · have hone : ¬ Copies sets possible cs o 1 := fun h => hpos (hiff.mp h).2
      refine ⟨caps, ?_⟩
      rw [if_neg hone]
      exact greedy_units_eq_none hp index hne hnext hanti (length_le_of_occursAt hne hocc)
        (Bool.not_eq_true _ ▸ hpos) _ _
  · have hone : ¬ Copies sets possible cs o 1 := fun h => hocc (hiff.mp h).1
    exact ⟨caps, by rw [if_neg hocc, if_neg hone]⟩

end Units

/-- A reluctant repetition of arbitrary characters tries the offsets in order. -/
theorem run_star_any {caseless : Bool} {i : Nat} (hi : i ≤ cs.length) (caps : Captures)
    (next : Next α) : (star (.set .any) true).run caseless everyLine (.inText cs i) caps next =
      (List.range' i (cs.length + 1 - i)).findSome? fun j => next (.inText cs j) caps := by
  rw [run, if_pos rfl, Cursor.inText_rest_length]
  obtain ⟨n, hn⟩ : ∃ n, cs.length - i = n := ⟨_, rfl⟩
  rw [hn, show cs.length + 1 - i = n + 1 by omega]
  induction n generalizing i with
  | zero =>
    rw [reluctant, List.range'_one, List.findSome?_singleton]
  | succ n ih =>
    have hc : cs[i]? = some cs[i] := List.getElem?_eq_getElem (by omega)
    have hocc : occursAt caseless [.any] cs i = true := by simp [hc, CharSet.contains]
    have hrange : List.range' i (n + 1 + 1) = i :: List.range' (i + 1) (n + 1) := List.range'_succ
    have hlater := ih (i := i + 1) (by omega) (by omega)
    rw [reluctant, run_set, if_pos hocc, Cursor.inText_offset, Cursor.inText_offset,
      if_pos (Nat.lt_succ_self i), hlater, hrange, List.findSome?_cons]
    cases next (.inText cs i) caps <;> rfl

end Pattern

end CommentGrade
