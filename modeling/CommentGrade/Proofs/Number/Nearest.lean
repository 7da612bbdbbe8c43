import Mathlib.Data.Rat.Floor
import Mathlib.Tactic.Linarith
import Mathlib.Tactic.NormNum
import Mathlib.Tactic.Positivity
import Mathlib.Tactic.Ring

/-!
# Nearest doubles

A double is a whole number of 53 bits times a power of two that is not below the least one. A number that is not negative
is rounded to the nearest such multiple, and a half goes to the even neighbour. Rounding keeps the order of numbers: in
the same grid the nearest neighbours follow the numbers, and between two grids there is a power of two.
-/
namespace CommentGrade.Number

/-- A whole number that is a half away at most, and even if it is a half away. -/
structure NearestEven (x : ℚ) (n : ℕ) : Prop where
  le_add_half : 2 * (n : ℚ) ≤ 2 * x + 1
  add_half_ge : 2 * x ≤ 2 * (n : ℚ) + 1
  even : 2 * (n : ℚ) = 2 * x + 1 ∨ 2 * x = 2 * (n : ℚ) + 1 → n % 2 = 0

/-- The grid of the doubles next to a number that is not negative: the multiples of a power of two that have 53 bits
there, or the finest one. -/
structure OnGrid (x : ℚ) (k : ℤ) : Prop where
  nonneg : 0 ≤ x
  least_le : -1074 ≤ k
  lt : x < 2 ^ (53 + k)
  le : k = -1074 ∨ 2 ^ (52 + k) ≤ x

/-- What a number is rounded to, if doubles are not bounded above. -/
def Rounds (x w : ℚ) : Prop := ∃ (k : ℤ) (n : ℕ), OnGrid x k ∧ NearestEven (x / 2 ^ k) n ∧ w = n * 2 ^ k

/-- The number is a multiple in one of the grids. -/
def IsDouble (w : ℚ) : Prop := ∃ (n : ℕ) (k : ℤ), n < 2 ^ 53 ∧ -1074 ≤ k ∧ w = n * 2 ^ k

section NearestEven

variable {x y : ℚ} {n m : ℕ}

theorem nearestEven_natCast (n : ℕ) : NearestEven n n := by
  refine ⟨by linarith, by linarith, fun h => ?_⟩
  rcases h with h | h <;> linarith

/-- The nearest whole number follows the number: at the same half both neighbours would be even. -/
theorem NearestEven.mono (hx : NearestEven x n) (hy : NearestEven y m) (h : x ≤ y) : n ≤ m := by
  by_contra hlt
  have hnext : (m : ℚ) + 1 ≤ n := by exact_mod_cast Nat.not_le.mp hlt
  have hlower := hx.le_add_half
  have hupper := hy.add_half_ge
  have hhalf : 2 * (n : ℚ) = 2 * x + 1 := by linarith
  have hhalf' : 2 * y = 2 * (m : ℚ) + 1 := by linarith
  have hadjacent : n = m + 1 := by
    have hcast : (n : ℚ) = m + 1 := by linarith
    exact_mod_cast hcast
  have hn := hx.even (.inl hhalf)
  have hm := hy.even (.inr hhalf')
  omega

end NearestEven

section Grids

variable {x y v w : ℚ} {k l : ℤ} {n m : ℕ}

theorem two_zpow_pos (k : ℤ) : (0 : ℚ) < 2 ^ k := zpow_pos two_pos k

theorem two_zpow_le (h : k ≤ l) : (2 : ℚ) ^ k ≤ 2 ^ l := zpow_le_zpow_right₀ one_le_two h

theorem two_zpow_natCast_add (a : ℕ) (k : ℤ) : (2 : ℚ) ^ (a + k) = (2 ^ a : ℕ) * 2 ^ k := by
  rw [zpow_add₀ two_ne_zero, zpow_natCast]
  push_cast
  rfl

/-- In its grid a number lies below the multiple of 53 bits. -/
theorem OnGrid.nearest_le (h : OnGrid x k) (hn : NearestEven (x / 2 ^ k) n) : n ≤ 2 ^ 53 := by
  apply hn.mono (nearestEven_natCast (2 ^ 53))
  rw [div_le_iff₀ (two_zpow_pos k), ← two_zpow_natCast_add]
  exact h.lt.le

/-- Above the finest grid, a number lies above the least multiple of 53 bits. -/
theorem OnGrid.le_nearest (h : OnGrid x k) (hk : k ≠ -1074) (hn : NearestEven (x / 2 ^ k) n) : 2 ^ 52 ≤ n := by
  apply (nearestEven_natCast (2 ^ 52)).mono hn
  rw [le_div_iff₀ (two_zpow_pos k), ← two_zpow_natCast_add]
  exact h.le.resolve_left hk

theorem Rounds.mono (hx : Rounds x v) (hy : Rounds y w) (h : x ≤ y) : v ≤ w := by
  obtain ⟨k, n, hk, hn, rfl⟩ := hx
  obtain ⟨l, m, hl, hm, rfl⟩ := hy
  rcases lt_trichotomy k l with hlt | rfl | hgt
  · have hleast : l ≠ -1074 := fun heq => absurd hk.least_le (by omega)
    have hn' : (n : ℚ) ≤ (2 ^ 53 : ℕ) := by exact_mod_cast hk.nearest_le hn
    have hm' : ((2 ^ 52 : ℕ) : ℚ) ≤ m := by exact_mod_cast hl.le_nearest hleast hm
    calc (n : ℚ) * 2 ^ k ≤ (2 ^ 53 : ℕ) * 2 ^ k := mul_le_mul_of_nonneg_right hn' (two_zpow_pos k).le
      _ = 2 ^ ((53 : ℕ) + k) := (two_zpow_natCast_add 53 k).symm
      _ ≤ 2 ^ ((52 : ℕ) + l) := two_zpow_le (by omega)
      _ = (2 ^ 52 : ℕ) * 2 ^ l := two_zpow_natCast_add 52 l
      _ ≤ m * 2 ^ l := mul_le_mul_of_nonneg_right hm' (two_zpow_pos l).le
  · have hquotient : x / 2 ^ k ≤ y / 2 ^ k := div_le_div_of_nonneg_right h (two_zpow_pos k).le
    have hnm : (n : ℚ) ≤ m := by exact_mod_cast hn.mono hm hquotient
    exact mul_le_mul_of_nonneg_right hnm (two_zpow_pos k).le
  · have hleast : k ≠ -1074 := fun heq => absurd hl.least_le (by omega)
    have hpower : (2 : ℚ) ^ (53 + l) ≤ 2 ^ (52 + k) := two_zpow_le (by omega)
    have hk' := hk.le.resolve_left hleast
    have hl' := hl.lt
    linarith

theorem Rounds.unique (hv : Rounds x v) (hw : Rounds x w) : v = w :=
  le_antisymm (hv.mono hw le_rfl) (hw.mono hv le_rfl)

theorem Rounds.nonneg (h : Rounds x w) : 0 ≤ w := by
  obtain ⟨k, n, -, -, rfl⟩ := h
  exact mul_nonneg (Nat.cast_nonneg n) (two_zpow_pos k).le

theorem Rounds.isDouble (h : Rounds x w) : IsDouble w := by
  obtain ⟨k, n, hk, hn, rfl⟩ := h
  rcases (hk.nearest_le hn).lt_or_eq with hlt | rfl
  · exact ⟨n, k, hlt, hk.least_le, rfl⟩
  · refine ⟨2 ^ 52, k + 1, by norm_num, by have := hk.least_le; omega, ?_⟩
    rw [add_comm k 1, zpow_add₀ two_ne_zero]
    push_cast
    ring

theorem onGrid_of_lt (hn : n < 2 ^ 53) (hk : -1074 ≤ k) (hfull : k = -1074 ∨ 2 ^ 52 ≤ n) : OnGrid (n * 2 ^ k) k := by
  refine ⟨mul_nonneg (Nat.cast_nonneg n) (two_zpow_pos k).le, hk, ?_, hfull.imp_right fun hge => ?_⟩
  · have hcast : (n : ℚ) < (2 ^ 53 : ℕ) := by exact_mod_cast hn
    calc (n : ℚ) * 2 ^ k < (2 ^ 53 : ℕ) * 2 ^ k := mul_lt_mul_of_pos_right hcast (two_zpow_pos k)
      _ = 2 ^ ((53 : ℕ) + k) := (two_zpow_natCast_add 53 k).symm
  · have hcast : ((2 ^ 52 : ℕ) : ℚ) ≤ n := by exact_mod_cast hge
    calc (2 : ℚ) ^ ((52 : ℕ) + k) = (2 ^ 52 : ℕ) * 2 ^ k := two_zpow_natCast_add 52 k
      _ ≤ n * 2 ^ k := mul_le_mul_of_nonneg_right hcast (two_zpow_pos k).le

theorem OnGrid.rounds (h : OnGrid (n * 2 ^ k) k) : Rounds (n * 2 ^ k) (n * 2 ^ k) := by
  refine ⟨k, n, h, ?_, rfl⟩
  rw [mul_div_cancel_right₀ _ (two_zpow_pos k).ne']
  exact nearestEven_natCast n

theorem IsDouble.rounds (h : IsDouble w) : Rounds w w := by
  obtain ⟨n, k, hn, hk, rfl⟩ := h
  induction hd : (k + 1074).toNat generalizing n k with
  | zero => exact (onGrid_of_lt hn hk (.inl (by omega))).rounds
  | succ d ih =>
    by_cases hfull : 2 ^ 52 ≤ n
    · exact (onGrid_of_lt hn hk (.inr hfull)).rounds
    · have hfiner : (n : ℚ) * 2 ^ k = (2 * n : ℕ) * 2 ^ (k - 1) := by
        rw [zpow_sub₀ two_ne_zero]
        push_cast
        ring
      rw [hfiner]
      exact ih (2 * n) (k - 1) (by omega) (by omega) (by omega)

theorem IsDouble.eq_of_rounds (h : IsDouble v) (hw : Rounds v w) : w = v := hw.unique h.rounds

theorem isDouble_natCast (hn : n < 2 ^ 53) : IsDouble n := ⟨n, 0, hn, by decide, by rw [zpow_zero, mul_one]⟩

theorem isDouble_two_zpow (hk : -1074 ≤ k) : IsDouble (2 ^ k) := ⟨1, k, by norm_num, hk, by rw [Nat.cast_one, one_mul]⟩

theorem IsDouble.floor (h : IsDouble w) : IsDouble ⌊w⌋ := by
  obtain ⟨n, k, hn, hk, rfl⟩ := h
  by_cases hwhole : 0 ≤ k
  · obtain ⟨d, rfl⟩ := Int.eq_ofNat_of_zero_le hwhole
    have hcast : (n : ℚ) * 2 ^ (d : ℤ) = ((n * 2 ^ d : ℕ) : ℤ) := by
      rw [zpow_natCast]
      push_cast
      rfl
    rw [hcast, Int.floor_intCast, ← hcast]
    exact ⟨n, d, hn, hk, rfl⟩
  · have hnonneg : 0 ≤ (n : ℚ) * 2 ^ k := mul_nonneg (Nat.cast_nonneg n) (two_zpow_pos k).le
    obtain ⟨q, hq⟩ := Int.eq_ofNat_of_zero_le (Int.floor_nonneg.mpr hnonneg)
    have hle : (q : ℚ) ≤ n := by
      have hfloor := Int.floor_le ((n : ℚ) * 2 ^ k)
      have hpower : (2 : ℚ) ^ k ≤ 2 ^ (0 : ℤ) := two_zpow_le (by omega)
      rw [zpow_zero] at hpower
      rw [hq] at hfloor
      exact hfloor.trans (mul_le_of_le_one_right (Nat.cast_nonneg n) hpower)
    have hsmall : q ≤ n := by exact_mod_cast hle
    rw [hq]
    exact isDouble_natCast (hsmall.trans_lt hn)

end Grids

end CommentGrade.Number
