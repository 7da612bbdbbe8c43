import CommentGrade.Proofs.Number.Amount

/-!
# Arithmetic of doubles

Each operation on doubles that are not negative is the exact operation, rounded to the nearest double. The exact
result has enough bits before it is rounded: a product has those of its factors, a sum and a whole number are given them,
and a quotient is computed with as many.
-/
namespace CommentGrade.Number

open Float.Model (Format UnpackedFloat totalExponent)
open Float.Model.UnpackedFloat

section Operations

variable {u c : UnpackedFloat} {v k : ℚ}

theorem Stands.nonneg (h : Stands u v) : 0 ≤ v := by
  cases h with
  | zero s => exact le_rfl
  | finite hm => exact mul_nonneg (Nat.cast_nonneg _) (two_zpow_pos _).le

theorem Stands.isDouble (h : Stands u v) : IsDouble v := by
  cases h with
  | zero s => exact isDouble_natCast (n := 0) (by decide)
  | finite hm hlt hleast hfull => exact ⟨_, _, hlt, hleast, rfl⟩

theorem exists_zero (s : Sign) : ∃ w, Rounds 0 w ∧ Stands (.zero s) w :=
  ⟨0, (Stands.zero s).isDouble.rounds, .zero s⟩

theorem Stands.exists_self (h : Stands u v) : ∃ w, Rounds v w ∧ Stands u w := ⟨v, h.isDouble.rounds, h⟩

/-- A whole number times a power of two that has enough bits is rounded to the nearest double. -/
theorem stands_roundWithAccuracy_exact {m : ℕ} {e : ℤ} (hfine : e ≤ -1074 ∨ 2 ^ 52 ≤ m) :
    ∃ w, Rounds (m * 2 ^ e) w ∧ Stands (roundWithAccuracy .binary64 .positive m e .exact) w := by
  apply stands_roundWithAccuracy hfine
  rw [mul_div_cancel_right₀ _ (two_zpow_pos e).ne']
  exact represents_exact m

theorem targetExponent_binary64 (t : ℤ) : Format.binary64.targetExponent t = max (t - 53) (-1074) := rfl

/-- More bits behind a mantissa, and an exponent that is as much lower, stand for the same number. -/
theorem shifted_mul_zpow (m shift : ℕ) (e : ℤ) : ((m * 2 ^ shift : ℕ) : ℚ) * 2 ^ (e - shift) = m * 2 ^ e := by
  rw [zpow_sub₀ two_ne_zero, zpow_natCast]
  push_cast
  field_simp

theorem lowered_mul_zpow (m : ℕ) {e t : ℤ} (h : t ≤ e) : ((m * 2 ^ (e - t).toNat : ℕ) : ℚ) * 2 ^ t = m * 2 ^ e := by
  have hsmaller : t = e - (e - t).toNat := by omega
  conv_lhs => rw [hsmaller]
  have hsame : (e - (e - ((e - t).toNat : ℤ))).toNat = (e - t).toNat := by omega
  rw [hsame]
  exact shifted_mul_zpow m _ e

theorem two_pow_le_shifted {m : ℕ} (hm : 0 < m) {n shift : ℕ} (h : n ≤ m.log2 + shift) : 2 ^ n ≤ m * 2 ^ shift :=
  calc 2 ^ n ≤ 2 ^ (m.log2 + shift) := Nat.pow_le_pow_right (by decide) h
    _ = 2 ^ m.log2 * 2 ^ shift := Nat.pow_add 2 _ _
    _ ≤ m * 2 ^ shift := Nat.mul_le_mul_right _ (Nat.log2_self_le hm.ne')

/-- A whole number times a power of two is given enough bits and rounded. -/
theorem stands_round {m : ℕ} (hm : 0 < m) (e : ℤ) :
    ∃ w, Rounds (m * 2 ^ e) w ∧ Stands (UnpackedFloat.round .binary64 .positive m e) w := by
  simp only [UnpackedFloat.round, decreaseExponent, Nat.shiftLeft_eq, targetExponent_binary64, totalExponent]
  rw [← shifted_mul_zpow m (e - max ((m.log2 : ℤ) + 1 + e - 53) (-1074)).toNat e]
  apply stands_roundWithAccuracy_exact
  by_cases hleast : e - ((e - max ((m.log2 : ℤ) + 1 + e - 53) (-1074)).toNat : ℤ) ≤ -1074
  · exact .inl hleast
  · exact .inr (two_pow_le_shifted hm (by omega))

theorem stands_normalize {m : ℕ} (e : ℤ) :
    ∃ w, Rounds (m * 2 ^ e) w ∧ Stands (UnpackedFloat.normalize .binary64 m e .positive) w := by
  rcases Nat.eq_zero_or_pos m with rfl | hm
  · rw [Nat.cast_zero, zero_mul]
    exact exists_zero _
  · have hpositive : UnpackedFloat.normalize .binary64 (m : ℤ) e .positive = .round .binary64 .positive m e := by
      rw [UnpackedFloat.normalize, compare_gt_iff_gt.mpr (Int.natCast_pos.mpr hm), Int.toNat_natCast]
    rw [hpositive]
    exact stands_round hm e

theorem Stands.mul (hu : Stands u v) (hc : Stands c k) :
    ∃ w, Rounds (v * k) w ∧ Stands (UnpackedFloat.mul .binary64 u c) w := by
  cases hu with
  | zero s =>
    rw [zero_mul]
    cases hc with
    | zero t => exact exists_zero _
    | finite hm => exact exists_zero _
  | @finite m e hm hlt hleast hfull =>
    cases hc with
    | zero t =>
      rw [mul_zero]
      exact exists_zero _
    | @finite n f hn hlt' hleast' hfull' =>
      have hvalue : (m : ℚ) * 2 ^ e * (n * 2 ^ f) = (m * n : ℕ) * 2 ^ (e + f) := by
        rw [zpow_add₀ two_ne_zero]
        push_cast
        ring
      rw [hvalue]
      apply stands_roundWithAccuracy_exact
      rcases hfull with rfl | hge
      · rcases hfull' with rfl | hge'
        · exact .inl (by decide)
        · exact .inr (hge'.trans (Nat.le_mul_of_pos_left n hm))
      · exact .inr (hge.trans (Nat.le_mul_of_pos_right m hn))

theorem Stands.add (hu : Stands u v) (hc : Stands c k) :
    ∃ w, Rounds (v + k) w ∧ Stands (UnpackedFloat.add .binary64 u c) w := by
  cases hu with
  | zero s =>
    rw [zero_add]
    cases hc with
    | zero t =>
      simp only [UnpackedFloat.add]
      split_ifs <;> exact exists_zero _
    | finite hm hlt hleast hfull => exact (Stands.finite hm hlt hleast hfull).exists_self
  | @finite m e hm hlt hleast hfull =>
    cases hc with
    | zero t =>
      rw [add_zero]
      exact (Stands.finite hm hlt hleast hfull).exists_self
    | @finite n f hn hlt' hleast' hfull' =>
      simp only [UnpackedFloat.add, decreaseExponent, Nat.shiftLeft_eq]
      have hvalue : (m : ℚ) * 2 ^ e + n * 2 ^ f =
          (m * 2 ^ (e - min e f).toNat + n * 2 ^ (f - min e f).toNat : ℕ) * 2 ^ min e f := by
        rw [Nat.cast_add, add_mul, lowered_mul_zpow m (min_le_left e f), lowered_mul_zpow n (min_le_right e f)]
      rw [hvalue]
      exact stands_normalize _

theorem Stands.sub (hu : Stands u v) (hc : Stands c k) (h : k ≤ v) :
    ∃ w, Rounds (v - k) w ∧ Stands (UnpackedFloat.sub .binary64 u c) w := by
  cases hc with
  | zero t =>
    rw [sub_zero]
    cases hu with
    | zero s =>
      simp only [UnpackedFloat.sub]
      split_ifs <;> exact exists_zero _
    | finite hm hlt hleast hfull => exact (Stands.finite hm hlt hleast hfull).exists_self
  | @finite n f hn hlt' hleast' hfull' =>
    cases hu with
    | zero s => exact absurd h (not_le.mpr (mul_pos (Nat.cast_pos.mpr hn) (two_zpow_pos f)))
    | @finite m e hm hlt hleast hfull =>
      simp only [UnpackedFloat.sub, decreaseExponent, Nat.shiftLeft_eq]
      rw [← lowered_mul_zpow m (min_le_left e f), ← lowered_mul_zpow n (min_le_right e f)] at h ⊢
      have hle : n * 2 ^ (f - min e f).toNat ≤ m * 2 ^ (e - min e f).toNat := by
        exact_mod_cast le_of_mul_le_mul_right h (two_zpow_pos _)
      have hdifference : Sign.positive.apply (m * 2 ^ (e - min e f).toNat : ℕ) -
          Sign.positive.apply (n * 2 ^ (f - min e f).toNat : ℕ) =
          ((m * 2 ^ (e - min e f).toNat - n * 2 ^ (f - min e f).toNat : ℕ) : ℤ) := (Int.ofNat_sub hle).symm
      rw [hdifference, ← sub_mul, ← Nat.cast_sub hle]
      exact stands_normalize _

/-- The exponent that a quotient is computed with gives it enough bits. -/
theorem enough_bits_quotient {m n : ℕ} (hm : 0 < m) (hn : 0 < n) {d t : ℤ}
    (ht : t = min d (max ((m.log2 : ℤ) - n.log2 + d - 53) (-1074))) :
    t ≤ -1074 ∨ 2 ^ 52 ≤ m * 2 ^ (d - t).toNat / n := by
  by_cases hleast : t ≤ -1074
  · exact .inl hleast
  · refine .inr ((Nat.le_div_iff_mul_le hn).mpr ?_)
    calc 2 ^ 52 * n ≤ 2 ^ 52 * 2 ^ (n.log2 + 1) := Nat.mul_le_mul_left _ Nat.lt_log2_self.le
      _ = 2 ^ (52 + (n.log2 + 1)) := (Nat.pow_add 2 _ _).symm
      _ ≤ m * 2 ^ (d - t).toNat := two_pow_le_shifted hm (by omega)

theorem Stands.div (hu : Stands u v) (hc : Stands c k) (hk : 0 < k) :
    ∃ w, Rounds (v / k) w ∧ Stands (UnpackedFloat.div .binary64 u c) w := by
  cases hc with
  | zero t => exact absurd hk (lt_irrefl 0)
  | @finite n f hn hlt' hleast' hfull' =>
    cases hu with
    | zero s =>
      rw [zero_div]
      exact exists_zero _
    | @finite m e hm hlt hleast hfull =>
      simp only [UnpackedFloat.div, divCore, Nat.shiftLeft_eq, targetExponent_binary64, totalExponent]
      have ht : min (e - f) (max ((m.log2 : ℤ) + 1 + e - (n.log2 + 1 + f) - 53) (-1074)) =
          min (e - f) (max ((m.log2 : ℤ) - n.log2 + (e - f) - 53) (-1074)) := by omega
      apply stands_roundWithAccuracy (enough_bits_quotient hm hn ht)
      generalize min (e - f) (max ((m.log2 : ℤ) + 1 + e - (n.log2 + 1 + f) - 53) (-1074)) = t at ht ⊢
      have hle : t ≤ e - f := ht ▸ min_le_left _ _
      have hvalue : (m : ℚ) * 2 ^ e / (n * 2 ^ f) / 2 ^ t = (m * 2 ^ (e - f - t).toNat : ℕ) / n := by
        have hnumerator : (m : ℚ) * 2 ^ e = (m * 2 ^ (e - f - t).toNat : ℕ) * 2 ^ t * 2 ^ f := by
          rw [lowered_mul_zpow m hle, mul_assoc, ← zpow_add₀ two_ne_zero, sub_add_cancel]
        rw [hnumerator, mul_div_mul_right _ _ (two_zpow_pos f).ne', div_right_comm,
          mul_div_cancel_right₀ _ (two_zpow_pos t).ne']
      rw [hvalue]
      exact represents_fraction _ hn

/-- What is not finite. -/
inductive Lost : UnpackedFloat → Prop
  | infinity (s : Sign) : Lost (.infinity s)
  | notANumber : Lost .notANumber

theorem lost_iff : Lost u ↔ exactValue u = ⊤ := by
  cases u with
  | infinity s => exact ⟨fun _ => rfl, fun _ => .infinity s⟩
  | notANumber => exact ⟨fun _ => rfl, fun _ => .notANumber⟩
  | zero s => exact ⟨nofun, fun h => absurd h (WithTop.coe_ne_top)⟩
  | finite s m e hm => exact ⟨nofun, fun h => absurd h (WithTop.coe_ne_top)⟩

theorem Lost.exactValue_unpack_pack (h : Lost u) : exactValue (unpack .binary64 (pack .binary64 u)) = ⊤ := by
  cases h with
  | infinity s =>
    rw [pack, unpack_packedInfinity]
    rfl
  | notANumber => rfl

/-- What is not finite stays so, whatever finite number it is combined with. -/
theorem Lost.mul (h : Lost u) (hc : Stands c k) (hk : 0 < k) : Lost (UnpackedFloat.mul .binary64 u c) := by
  cases hc with
  | zero s => exact absurd hk (lt_irrefl 0)
  | finite hm =>
    cases h with
    | infinity s => exact .infinity _
    | notANumber => exact .notANumber

theorem Lost.div (h : Lost u) (hc : Stands c k) : Lost (UnpackedFloat.div .binary64 u c) := by
  cases hc <;> cases h <;> constructor

theorem Lost.add (h : Lost u) (hc : Stands c k) : Lost (UnpackedFloat.add .binary64 u c) := by
  cases hc <;> cases h <;> constructor

theorem Lost.sub (h : Lost u) (hc : Stands c k) : Lost (UnpackedFloat.sub .binary64 u c) := by
  cases hc <;> cases h <;> constructor

end Operations

section Doubles

theorem canonical_of_unpack {b : BitVec 64} {s : Sign} {m : ℕ} {e : ℤ} {hm : 0 < m}
    (h : unpack .binary64 b = .finite s m e hm) : -1074 ≤ e ∧ (e = -1074 ∨ 2 ^ 52 ≤ m) := by
  simp only [unpack, exponentBias_binary64, mantissaBits_binary64] at h
  split_ifs at h with hspecial hnan hzero hsmall
  · obtain ⟨-, -, rfl⟩ := UnpackedFloat.finite.inj h
    have hnone : (@unpackExponent .binary64 b).toNat = 0 := congrArg BitVec.toNat hzero
    exact ⟨by omega, .inl (by omega)⟩
  · obtain ⟨-, rfl, rfl⟩ := UnpackedFloat.finite.inj h
    have hne : (@unpackExponent .binary64 b).toNat ≠ 0 := fun heq => hzero (BitVec.eq_of_toNat_eq heq)
    refine ⟨by omega, .inr ?_⟩
    rw [toNat_implicit_append]
    exact Nat.le_add_right _ _

variable {x c : Float} {v k : ℚ}

theorem stands_unpack (hx : amount x = v) (hv : 0 ≤ v) : Stands x.toModel.unpack v := by
  rw [amount] at hx
  cases hu : x.toModel.unpack with
  | infinity s | notANumber =>
    rw [hu] at hx
    exact absurd hx.symm WithTop.coe_ne_top
  | zero s =>
    rw [hu] at hx
    obtain rfl : 0 = v := WithTop.coe_injective hx
    exact .zero s
  | finite s m e hm =>
    rw [hu] at hx
    obtain rfl : ((s.apply m : ℤ) : ℚ) * 2 ^ e = v := WithTop.coe_injective hx
    obtain ⟨hleast, hfull⟩ := canonical_of_unpack hu
    cases s with
    | positive => exact .finite hm (bounds_of_unpack hu).1 hleast hfull
    | negative =>
      have hnegative : (((Sign.negative.apply m : ℤ) : ℚ)) < 0 := by
        simp only [Sign.apply, Int.cast_neg, Int.cast_natCast]
        exact neg_lt_zero.mpr (Nat.cast_pos.mpr hm)
      exact absurd hv (not_le.mpr (mul_neg_of_neg_of_pos hnegative (two_zpow_pos e)))

theorem lt_bound_of_amount (hx : amount x = v) (hv : 0 ≤ v) : v < 2 ^ (1024 : ℤ) := by
  have hstands := stands_unpack hx hv
  generalize hu : x.toModel.unpack = u at hstands
  cases hstands with
  | zero s => exact two_zpow_pos 1024
  | finite hm hlt hleast hfull => exact (lt_bound_iff hlt hfull).mpr (bounds_of_unpack hu).2

/-- An operation on doubles from a bound on that is an exact operation, rounded; what is not finite stays so. -/
structure RoundsTo (low : ℚ) (f : ℚ → ℚ) (op : Float → Float) : Prop where
  finite : ∀ {x : Float} {v : ℚ}, amount x = v → low ≤ v → ∃ w, Rounds (f v) w ∧ amount (op x) = bounded w
  lost : ∀ {x : Float}, amount x = ⊤ → amount (op x) = ⊤

/-- An operation on doubles is one on unpacked numbers, whose result is packed. -/
theorem roundsTo_of_unpacked {low : ℚ} (hlow : 0 ≤ low) {f : ℚ → ℚ} {op : Float → Float}
    {g : UnpackedFloat → UnpackedFloat}
    (hop : ∀ x, amount (op x) = exactValue (unpack .binary64 (pack .binary64 (g x.toModel.unpack))))
    (hfinite : ∀ {u v}, Stands u v → low ≤ v → ∃ w, Rounds (f v) w ∧ Stands (g u) w)
    (hlost : ∀ {u}, Lost u → Lost (g u)) : RoundsTo low f op := by
  constructor
  · intro x v hx hv
    obtain ⟨w, hw, hresult⟩ := hfinite (stands_unpack hx (hlow.trans hv)) hv
    exact ⟨w, hw, (hop x).trans hresult.exactValue_unpack_pack⟩
  · intro x hx
    exact (hop x).trans (hlost (lost_iff.mpr hx)).exactValue_unpack_pack

theorem roundsTo_mul (hc : amount c = k) (hk : 0 < k) : RoundsTo 0 (· * k) (· * c) :=
  have hstands := stands_unpack hc hk.le
  roundsTo_of_unpacked (g := (UnpackedFloat.mul .binary64 · c.toModel.unpack)) le_rfl (fun _ => rfl)
    (fun hu _ => hu.mul hstands) fun hu => hu.mul hstands hk

theorem roundsTo_div (hc : amount c = k) (hk : 0 < k) : RoundsTo 0 (· / k) (· / c) :=
  have hstands := stands_unpack hc hk.le
  roundsTo_of_unpacked (g := (UnpackedFloat.div .binary64 · c.toModel.unpack)) le_rfl (fun _ => rfl)
    (fun hu _ => hu.div hstands hk) fun hu => hu.div hstands

theorem roundsTo_add (hc : amount c = k) (hk : 0 ≤ k) : RoundsTo 0 (· + k) (· + c) :=
  have hstands := stands_unpack hc hk
  roundsTo_of_unpacked (g := (UnpackedFloat.add .binary64 · c.toModel.unpack)) le_rfl (fun _ => rfl)
    (fun hu _ => hu.add hstands) fun hu => hu.add hstands

theorem roundsTo_sub (hc : amount c = k) (hk : 0 ≤ k) : RoundsTo k (· - k) (· - c) :=
  have hstands := stands_unpack hc hk
  roundsTo_of_unpacked (g := (UnpackedFloat.sub .binary64 · c.toModel.unpack)) hk (fun _ => rfl)
    (fun hu hv => hu.sub hstands hv) fun hu => hu.sub hstands

end Doubles

end CommentGrade.Number
