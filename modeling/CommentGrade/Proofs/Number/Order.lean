import CommentGrade.Proofs.Number.Arithmetic

/-!
# Order of doubles

Whole numbers become doubles in their order, an operation that rounds the result of one that keeps the order keeps it,
and so does the integer part. What is not finite counts as above all numbers: a result that exists for a number exists
for those below it.
-/
namespace CommentGrade.Number

open Float.Model (Format UnpackedFloat totalExponent)
open Float.Model.UnpackedFloat

section Operations

variable {low : ℚ} {f : ℚ → ℚ} {op : Float → Float} {x y : Float} {a b : ℚ}

/-- What keeps the order of numbers keeps that of doubles. -/
theorem RoundsTo.mono (h : RoundsTo low f op) (hf : ∀ v w, low ≤ v → v ≤ w → f v ≤ f w)
    (hlow : (low : WithTop ℚ) ≤ amount x) (hxy : amount x ≤ amount y) : amount (op x) ≤ amount (op y) := by
  cases hy : amount y with
  | top =>
    rw [h.lost hy]
    exact le_top
  | coe w =>
    rw [hy] at hxy
    obtain ⟨v, hx, hvw⟩ := WithTop.le_coe_iff.mp hxy
    rw [hx] at hlow
    have hv : low ≤ v := WithTop.coe_le_coe.mp hlow
    obtain ⟨v', hv', hopx⟩ := h.finite hx hv
    obtain ⟨w', hw', hopy⟩ := h.finite hy (hv.trans hvw)
    rw [hopx, hopy]
    exact bounded_mono (hv'.mono hw' (hf v w hv hvw))

theorem RoundsTo.nonneg (h : RoundsTo low f op) (hlow : (low : WithTop ℚ) ≤ amount x) : 0 ≤ amount (op x) := by
  cases hx : amount x with
  | top =>
    rw [h.lost hx]
    exact le_top
  | coe v =>
    rw [hx] at hlow
    obtain ⟨w, hw, hop⟩ := h.finite hx (WithTop.coe_le_coe.mp hlow)
    rw [hop]
    exact bounded_nonneg hw.nonneg

theorem RoundsTo.le (h : RoundsTo low f op) (hf : ∀ v w, low ≤ v → v ≤ w → f v ≤ f w)
    (hlow : (low : WithTop ℚ) ≤ amount x) (hx : amount x ≤ a) (hb : IsDouble b) (hlt : b < 2 ^ (1024 : ℤ))
    (hab : f a ≤ b) : amount (op x) ≤ b := by
  obtain ⟨v, hv, hva⟩ := WithTop.le_coe_iff.mp hx
  rw [hv] at hlow
  have hlow' : low ≤ v := WithTop.coe_le_coe.mp hlow
  obtain ⟨w, hw, hop⟩ := h.finite hv hlow'
  have hle : w ≤ b := hw.mono hb.rounds ((hf v a hlow' hva).trans hab)
  rw [hop, bounded, if_pos (hle.trans_lt hlt)]
  exact_mod_cast hle

theorem amount_of_unpack {m : ℕ} {e : ℤ} {hm : 0 < m} (h : x.toModel.unpack = .finite .positive m e hm) :
    amount x = (m * 2 ^ e : ℚ) := by
  rw [amount, h]
  rfl

end Operations

section Whole

variable {n m : ℕ}

theorem natCast_lt_bound (hn : n < 2 ^ 53) : (n : ℚ) < 2 ^ (1024 : ℤ) :=
  calc (n : ℚ) < (2 ^ 53 : ℕ) := by exact_mod_cast hn
    _ = 2 ^ (53 : ℤ) := by norm_num
    _ ≤ 2 ^ (1024 : ℤ) := two_zpow_le (by decide)

theorem amount_toFloat (hn : n < 2 ^ 53) : amount n.toUInt64.toFloat = (n : ℚ) := by
  have hsmall : n.toUInt64.toNat = n := UInt64.toNat_ofNat_of_lt' (hn.trans (by decide))
  have hunpack : n.toUInt64.toFloat.toModel.unpack =
      unpack .binary64 (pack .binary64 (.normalize .binary64 (n.toUInt64.toNat : ℤ) 0 .positive)) := rfl
  obtain ⟨w, hw, hstands⟩ := stands_normalize (m := n) 0
  rw [zpow_zero, mul_one] at hw
  obtain rfl : w = n := (isDouble_natCast hn).eq_of_rounds hw
  rw [amount, hunpack, hsmall, hstands.exactValue_unpack_pack, bounded, if_pos (natCast_lt_bound hn)]

theorem unpack_one : (Float.ofBits 0x3FF0000000000000).toModel.unpack = .finite .positive (2 ^ 52) (-52) (by decide) := by
  rfl

/-- A whole number is rounded to the nearest double, in one step or in two of which the second one is exact. -/
theorem stands_ofNat (n : ℕ) :
    ∃ u w, Rounds n w ∧ Stands u w ∧ (Float.ofNat n).toModel.unpack = unpack .binary64 (pack .binary64 u) := by
  by_cases hn : n < 2 ^ 53
  · have hproduct : Float.ofNat n = n.toUInt64.toFloat * Float.ofBits 0x3FF0000000000000 := by
      change Float.ofScientific n false 0 = _
      rw [Float.ofScientific, dif_pos ⟨hn, Nat.zero_le _⟩]
      rfl
    have hone : Stands (Float.ofBits 0x3FF0000000000000).toModel.unpack ((2 ^ 52 : ℕ) * 2 ^ (-52 : ℤ)) := by
      rw [unpack_one]
      exact .finite _ (by decide) (by decide) (.inr le_rfl)
    obtain ⟨w, hw, hstands⟩ := (stands_unpack (amount_toFloat hn) (Nat.cast_nonneg n)).mul hone
    have hvalue : (n : ℚ) * ((2 ^ 52 : ℕ) * 2 ^ (-52 : ℤ)) = n := by norm_num
    rw [hvalue] at hw
    exact ⟨_, w, hw, hstands, hproduct ▸ rfl⟩
  · have hpos : 0 < n := by omega
    have hmodel : (Float.ofNat n).toModel.unpack =
        unpack .binary64 (pack .binary64 (ofScientific .binary64 n (0 : ℕ))) := by
      change (Float.ofScientific n false 0).toModel.unpack = _
      rw [Float.ofScientific, dif_neg (fun h => hn h.1)]
      rfl
    obtain ⟨w, hw, hstands⟩ := stands_roundWithAccuracy_exact (m := n * 10 ^ 0 * 2 ^ 53) (e := 0 - (53 : ℕ))
      (.inr (by omega))
    have hvalue : ((n * 10 ^ 0 * 2 ^ 53 : ℕ) : ℚ) * 2 ^ (0 - ((53 : ℕ) : ℤ)) = n := by
      rw [Nat.pow_zero, Nat.mul_one, shifted_mul_zpow, zpow_zero, mul_one]
    rw [hvalue] at hw
    refine ⟨_, w, hw, hstands, ?_⟩
    rw [hmodel, ofScientific_eq hpos (Nat.zero_le 400)]
    rfl

theorem exists_amount_ofNat (n : ℕ) : ∃ w, Rounds n w ∧ amount (Float.ofNat n) = bounded w := by
  obtain ⟨u, w, hw, hstands, hunpack⟩ := stands_ofNat n
  exact ⟨w, hw, by rw [amount, hunpack, hstands.exactValue_unpack_pack]⟩

theorem amount_ofNat_mono (h : n ≤ m) : amount (Float.ofNat n) ≤ amount (Float.ofNat m) := by
  obtain ⟨v, hv, hn⟩ := exists_amount_ofNat n
  obtain ⟨w, hw, hm⟩ := exists_amount_ofNat m
  rw [hn, hm]
  exact bounded_mono (hv.mono hw (by exact_mod_cast h))

theorem amount_ofNat_nonneg (n : ℕ) : 0 ≤ amount (Float.ofNat n) := by
  obtain ⟨w, hw, hn⟩ := exists_amount_ofNat n
  rw [hn]
  exact bounded_nonneg hw.nonneg

theorem amount_ofNat_of_isDouble (h : IsDouble n) (hlt : (n : ℚ) < 2 ^ (1024 : ℤ)) : amount (Float.ofNat n) = (n : ℚ) := by
  obtain ⟨w, hw, hn⟩ := exists_amount_ofNat n
  rw [hn, h.eq_of_rounds hw, bounded, if_pos hlt]

/-- A quotient by a whole number above zero that is too large for a double is zero. -/
theorem exists_roundsTo_div_ofNat (hn : 0 < n) : ∃ f : ℚ → ℚ, RoundsTo 0 f (· / Float.ofNat n) ∧
    (∀ v w, 0 ≤ v → v ≤ w → f v ≤ f w) ∧ ∀ v, 0 ≤ v → f v ≤ v := by
  obtain ⟨u, k, hk, hstands, hunpack⟩ := stands_ofNat n
  have hone : 1 ≤ k := (isDouble_natCast (n := 1) (by decide)).rounds.mono hk (by exact_mod_cast hn)
  have hpos : 0 < k := zero_lt_one.trans_le hone
  rcases hstands.unpack_pack with ⟨hsame, -⟩ | ⟨hinfinite, -⟩
  · have hc : amount (Float.ofNat n) = k := by rw [amount, hunpack, hsame, hstands.exactValue]
    exact ⟨(· / k), roundsTo_div hc hpos, fun v w _ h => div_le_div_of_nonneg_right h hpos.le,
      fun v hv => div_le_self hv hone⟩
  · refine ⟨fun _ => 0, ?_, fun _ _ _ _ => le_rfl, fun v hv => hv⟩
    apply roundsTo_of_unpacked (g := (UnpackedFloat.div .binary64 · (.infinity .positive))) le_rfl
    · intro x
      rw [← hinfinite, ← hunpack]
      rfl
    · intro u v hu _
      cases hu <;> exact exists_zero _
    · intro u hu
      cases hu <;> exact .notANumber

end Whole

section IntegerPart

/-- The exact value of what the bits stand for. -/
def Binary.amount : Binary → WithTop ℚ
  | .finite negative m e => (((if negative then -(m : ℤ) else m : ℤ) : ℚ) * 2 ^ e : ℚ)
  | .infinite _ | .notANumber => ⊤

theorem numerator_div (negative : Bool) (m : ℕ) (e : ℤ) :
    (numerator negative m e : ℚ) / (Nat.pow 2 (scale e).2 : ℕ) = ((if negative then -(m : ℤ) else m : ℤ) : ℚ) * 2 ^ e := by
  have hpower : (2 : ℚ) ^ e = (2 ^ e.toNat : ℕ) / (2 ^ (-e).toNat : ℕ) := by
    rcases Int.le_total 0 e with h | h
    · obtain ⟨d, rfl⟩ := Int.eq_ofNat_of_zero_le h
      simp
    · obtain ⟨d, hd⟩ := Int.eq_ofNat_of_zero_le (Int.neg_nonneg.mpr h)
      obtain rfl : e = -(d : ℤ) := by omega
      simp
  have hscale : Nat.pow 2 (scale e).2 = 2 ^ (-e).toNat := rfl
  have hnumerator : numerator negative m e = (if negative then -(m : ℤ) else m : ℤ) * (2 ^ e.toNat : ℕ) := by
    cases negative <;> simp [numerator, scale]
  rw [hpower, hscale, hnumerator, Int.cast_mul, mul_div_assoc]
  rfl

theorem Binary.floor_eq {b : Binary} {v : ℚ} (h : b.amount = v) : b.floor = .ok ⌊v⌋ := by
  cases b with
  | finite negative m e =>
    obtain rfl := WithTop.coe_injective h
    rw [Binary.floor, ← numerator_div, Rat.floor_intCast_div_natCast, Int.fdiv_eq_ediv_of_nonneg _ (Int.natCast_nonneg _)]
  | infinite negative | notANumber => exact absurd h.symm WithTop.coe_ne_top

theorem Binary.exists_floor_eq_error {b : Binary} (h : b.amount = ⊤) : ∃ e, b.floor = .error e := by
  cases b with
  | finite negative m e => exact absurd h WithTop.coe_ne_top
  | infinite negative => exact ⟨_, rfl⟩
  | notANumber => exact ⟨_, rfl⟩

theorem toNat_unpackMantissa (b : BitVec 64) : (@unpackMantissa .binary64 b).toNat = b.toNat % 2 ^ 52 := by
  simp [unpackMantissa]

theorem toNat_unpackExponent (b : BitVec 64) : (@unpackExponent .binary64 b).toNat = b.toNat / 2 ^ 52 % 2 ^ 11 := by
  simp [unpackExponent, Nat.shiftRight_eq_div_pow]

theorem ofBitVec_unpackSign (b : BitVec 64) :
    Sign.ofBitVec (@unpackSign .binary64 b) = if b.toNat / 2 ^ 63 == 1 then .negative else .positive := by
  have hlt : b.toNat < 2 ^ 64 := b.isLt
  have hbit : (@unpackSign .binary64 b).toNat = b.toNat / 2 ^ 63 % 2 := by
    simp [unpackSign, Nat.shiftRight_eq_div_pow]
  have hzero : @unpackSign .binary64 b = 0#1 ↔ b.toNat / 2 ^ 63 % 2 = 0 := by
    rw [← hbit, ← BitVec.toNat_inj]
    rfl
  simp only [Sign.ofBitVec, hzero, beq_iff_eq]
  split_ifs <;> first | rfl | omega

theorem apply_ite_sign (negative : Bool) (m : ℕ) :
    (if negative then Sign.negative else Sign.positive).apply m = if negative then -(m : ℤ) else m := by
  cases negative <;> rfl

/-- The bits stand for the same number, in whichever way they are taken apart. -/
theorem amount_ofFloat (x : Float) : (Binary.ofFloat x).amount = amount x := by
  have hbits : x.toBits.toNat = x.toModel.toBits.toBitVec.toNat := rfl
  have hvalue : amount x = exactValue (unpack .binary64 x.toModel.toBits.toBitVec) := rfl
  rw [hvalue, Binary.ofFloat, hbits]
  generalize x.toModel.toBits.toBitVec = b
  have hmantissa := toNat_unpackMantissa b
  have hexponent := toNat_unpackExponent b
  have hspecial := toNat_of_ne_neg_one (e := @unpackExponent .binary64 b)
  have hzero : @unpackExponent .binary64 b = 0#_ ↔ (@unpackExponent .binary64 b).toNat = 0 := by
    rw [← BitVec.toNat_inj]
    rfl
  have hnone : @unpackMantissa .binary64 b = 0#_ ↔ (@unpackMantissa .binary64 b).toNat = 0 := by
    rw [← BitVec.toNat_inj]
    rfl
  have hpowers : Nat.pow 2 52 = 2 ^ 52 ∧ Nat.pow 2 11 = 2 ^ 11 ∧ Nat.pow 2 63 = 2 ^ 63 := ⟨rfl, rfl, rfl⟩
  rw [hpowers.1, hpowers.2.1, hpowers.2.2, ← hexponent, ← hmantissa]
  simp only [unpack, exponentBias_binary64, mantissaBits_binary64, ofBitVec_unpackSign]
  generalize (b.toNat / 2 ^ 63 == 1) = negative
  simp only [beq_iff_eq]
  by_cases hinfinite : (@unpackExponent .binary64 b).toNat = 2047
  · have hall : @unpackExponent .binary64 b = -1#_ := by
      by_contra hne
      exact hspecial.mp hne hinfinite
    rw [if_pos hinfinite, if_pos hall]
    split_ifs <;> rfl
  · rw [if_neg hinfinite, if_neg (hspecial.mpr hinfinite)]
    by_cases hsubnormal : (@unpackExponent .binary64 b).toNat = 0
    · rw [if_pos hsubnormal, if_pos (hzero.mpr hsubnormal), hsubnormal]
      by_cases hnothing : (@unpackMantissa .binary64 b).toNat = 0
      · rw [dif_pos (hnone.mpr hnothing), hnothing, Binary.amount, exactValue]
        split_ifs <;> simp
      · rw [dif_neg (fun h => hnothing (hnone.mp h)), Binary.amount, exactValue, apply_ite_sign]
        rfl
    · rw [if_neg hsubnormal, if_neg (fun h => hsubnormal (hzero.mp h)), Binary.amount, exactValue, apply_ite_sign,
        toNat_implicit_append]
      rfl

variable {x y : Float} {k : ℤ}

theorem floor_eq_ok_iff : (Placed.floor x : Except NotFinite Int) = .ok k ↔ ∃ v : ℚ, amount x = v ∧ k = ⌊v⌋ := by
  change (Binary.ofFloat x).floor = .ok k ↔ _
  rw [← amount_ofFloat]
  constructor
  · intro h
    cases hv : (Binary.ofFloat x).amount with
    | top =>
      obtain ⟨e, he⟩ := Binary.exists_floor_eq_error hv
      rw [he] at h
      cases h
    | coe v =>
      rw [Binary.floor_eq hv] at h
      exact ⟨v, rfl, (Except.ok.inj h).symm⟩
  · rintro ⟨v, hv, rfl⟩
    exact Binary.floor_eq hv

theorem exists_amount_of_isFinite (hx : x.isFinite = true) : ∃ v : ℚ, amount x = v := by
  change x.toModel.unpack.isFinite = true at hx
  unfold amount
  cases hu : x.toModel.unpack with
  | infinity s | notANumber =>
    rw [hu] at hx
    cases hx
  | zero s => exact ⟨0, rfl⟩
  | finite s m e hm => exact ⟨_, rfl⟩

theorem floor_mono (hxy : amount x ≤ amount y) (hy : (Placed.floor y : Except NotFinite Int) = .ok k) :
    ∃ j, (Placed.floor x : Except NotFinite Int) = .ok j ∧ j ≤ k := by
  obtain ⟨w, hw, rfl⟩ := floor_eq_ok_iff.mp hy
  rw [hw] at hxy
  obtain ⟨v, hv, hle⟩ := WithTop.le_coe_iff.mp hxy
  exact ⟨⌊v⌋, floor_eq_ok_iff.mpr ⟨v, hv, rfl⟩, Int.floor_mono hle⟩

end IntegerPart

end CommentGrade.Number
