import CommentGrade.Proofs.Number.Nearest
import CommentGrade.Proofs.Number.Range

/-!
# The value of a double

What a double stands for is a fraction, and nothing where it is not finite. A mantissa with a round bit and a sticky bit
represents a number closely enough to find its nearest double: each shift halves the number and keeps what the two bits
say about it. What is rounded is packed and unpacked without a change, or it is beyond the greatest double.
-/
namespace CommentGrade.Number

open Float.Model (Format UnpackedFloat totalExponent)
open Float.Model.UnpackedFloat

section Rounding

/-- A mantissa with its two bits stands for a number: it is cut off half a unit further on, and the last bit says whether
anything is left. -/
structure Represents (em : ExtendedMantissa) (y : ℚ) : Prop where
  le : (halves em : ℚ) ≤ 2 * y
  lt : 2 * y < halves em + 1
  sticky : em.stickyBit = false ↔ (halves em : ℚ) = 2 * y

variable {em : ExtendedMantissa} {y : ℚ}

theorem Represents.mantissa_le (h : Represents em y) : (em.mantissa : ℚ) ≤ y := by
  have hle := h.le
  have hhalves : (2 * em.mantissa : ℚ) ≤ halves em := by exact_mod_cast Nat.le_add_right _ _
  linarith

theorem Represents.lt_mantissa_succ (h : Represents em y) : y < (em.mantissa + 1 : ℕ) := by
  have hlt := h.lt
  have hbit : em.roundBit.toNat ≤ 1 := Bool.toNat_le em.roundBit
  have hhalves : (halves em : ℚ) ≤ 2 * em.mantissa + 1 := by
    rw [halves]
    exact_mod_cast Nat.add_le_add_left hbit _
  push_cast
  linarith

theorem mantissa_ofMantissaAndAccuracy (m : ℕ) (acc : Accuracy) :
    (ExtendedMantissa.ofMantissaAndAccuracy m acc).mantissa = m := by
  cases acc with
  | exact => rfl
  | inexact o => cases o <;> rfl

/-- A shift halves the number, and the round bit joins what is left. -/
theorem Represents.shiftRightOne (h : Represents em y) : Represents em.shiftRightOne (y / 2) := by
  have hdouble : 2 * (y / 2) = y := by ring
  have hhalves : (halves em : ℚ) = 2 * em.mantissa + em.roundBit.toNat := by
    rw [halves]
    push_cast
    rfl
  refine ⟨?_, ?_, ?_⟩ <;> rw [halves_shiftRightOne, hdouble]
  · exact h.mantissa_le
  · exact_mod_cast h.lt_mantissa_succ
  · have hle := h.le
    rw [ExtendedMantissa.shiftRightOne, Bool.or_eq_false_iff, h.sticky, hhalves]
    cases hround : em.roundBit with
    | false =>
      rw [Bool.toNat_false, Nat.cast_zero, add_zero]
      exact ⟨fun heq => by linarith [heq.2], fun heq => ⟨rfl, by linarith⟩⟩
    | true =>
      rw [hhalves, hround, Bool.toNat_true, Nat.cast_one] at hle
      exact ⟨fun heq => absurd heq.1 Bool.true_eq_false_eq_False, fun heq => by linarith⟩

theorem Represents.shiftRight (h : Represents em y) (shift : ℕ) : Represents (em >>> shift) (y / 2 ^ shift) := by
  induction shift with
  | zero =>
    rw [pow_zero, div_one]
    exact h
  | succ shift ih =>
    rw [pow_succ, ← div_div]
    exact ih.shiftRightOne

/-- The bits decide where the mantissa is rounded to. -/
theorem Represents.nearestEven (h : Represents em y) : NearestEven y em.roundedMantissa := by
  obtain ⟨hle, hlt, hsticky⟩ := h
  obtain ⟨mantissa, round, sticky⟩ := em
  cases round <;> cases sticky <;>
    simp only [halves, Bool.toNat_false, Bool.toNat_true, ExtendedMantissa.roundedMantissa,
      ExtendedMantissa.accuracy, Accuracy.roundToNearestEven, Nat.cast_add, Nat.cast_mul, Nat.cast_ofNat, Nat.cast_one,
      add_zero, reduceCtorEq, false_iff, true_iff] at hle hlt hsticky ⊢
  · exact ⟨by linarith, by linarith, fun hhalf => by rcases hhalf with h | h <;> linarith⟩
  · exact ⟨by linarith, by linarith, fun hhalf => by rcases hhalf with h | h <;> linarith⟩
  · rcases Nat.mod_two_eq_zero_or_one mantissa with heven | hodd
    · rw [heven, add_zero]
      exact ⟨by linarith, by linarith, fun _ => heven⟩
    · rw [hodd]
      refine ⟨?_, ?_, fun _ => by omega⟩ <;> push_cast <;> linarith
  · have hne : 2 * (mantissa : ℚ) + 1 < 2 * y := lt_of_le_of_ne hle hsticky
    refine ⟨?_, ?_, fun hhalf => ?_⟩
    · push_cast
      linarith
    · push_cast
      linarith
    · push_cast at hhalf
      rcases hhalf with h | h <;> linarith

theorem represents_exact (m : ℕ) : Represents (.ofMantissaAndAccuracy m .exact) m := by
  have hhalves : (halves (.ofMantissaAndAccuracy m .exact) : ℚ) = 2 * m := by
    simp [halves, ExtendedMantissa.ofMantissaAndAccuracy]
  refine ⟨hhalves.le, ?_, ?_⟩
  · rw [hhalves]
    linarith
  · exact ⟨fun _ => hhalves, fun _ => rfl⟩

theorem represents_below {q : ℕ} (hlt : (q : ℚ) < y) (hhalf : 2 * y < 2 * q + 1) :
    Represents (.ofMantissaAndAccuracy q (.inexact .lt)) y := by
  have hhalves : (halves (.ofMantissaAndAccuracy q (.inexact .lt)) : ℚ) = 2 * q := by
    simp [halves, ExtendedMantissa.ofMantissaAndAccuracy]
  have hsticky : (ExtendedMantissa.ofMantissaAndAccuracy q (.inexact .lt)).stickyBit = true := rfl
  refine ⟨by linarith, by linarith, ⟨fun hclear => ?_, fun heq => by linarith⟩⟩
  rw [hsticky] at hclear
  contradiction

theorem represents_half {q : ℕ} (hhalf : 2 * y = 2 * q + 1) :
    Represents (.ofMantissaAndAccuracy q (.inexact .eq)) y := by
  have hhalves : (halves (.ofMantissaAndAccuracy q (.inexact .eq)) : ℚ) = 2 * q + 1 := by
    simp [halves, ExtendedMantissa.ofMantissaAndAccuracy]
  refine ⟨by linarith, by linarith, ⟨fun _ => by linarith, fun _ => rfl⟩⟩

theorem represents_above {q : ℕ} (hhalf : 2 * (q : ℚ) + 1 < 2 * y) (hlt : y < q + 1) :
    Represents (.ofMantissaAndAccuracy q (.inexact .gt)) y := by
  have hhalves : (halves (.ofMantissaAndAccuracy q (.inexact .gt)) : ℚ) = 2 * q + 1 := by
    simp [halves, ExtendedMantissa.ofMantissaAndAccuracy]
  have hsticky : (ExtendedMantissa.ofMantissaAndAccuracy q (.inexact .gt)).stickyBit = true := rfl
  refine ⟨by linarith, by linarith, ⟨fun hclear => ?_, fun heq => by linarith⟩⟩
  rw [hsticky] at hclear
  contradiction

theorem represents_fraction (n : ℕ) {d : ℕ} (hd : 0 < d) :
    Represents (.ofMantissaAndAccuracy (n / d) (accuracyOfFraction (n % d) d)) ((n : ℚ) / d) := by
  have hpos : (0 : ℚ) < d := by exact_mod_cast hd
  have hquotient : (n : ℚ) / d * d = (n / d : ℕ) * d + (n % d : ℕ) := by
    rw [div_mul_cancel₀ _ hpos.ne']
    exact_mod_cast (Nat.div_add_mod' n d).symm
  have hless : ((n % d : ℕ) : ℚ) < d := by exact_mod_cast Nat.mod_lt n hd
  generalize (n : ℚ) / d = y at *
  generalize n / d = q at *
  generalize n % d = r at *
  unfold accuracyOfFraction
  split_ifs with hzero
  · rw [hzero, Nat.cast_zero, add_zero] at hquotient
    rw [mul_right_cancel₀ hpos.ne' hquotient]
    exact represents_exact q
  · have hremainder : (0 : ℚ) < r := by exact_mod_cast Nat.pos_of_ne_zero hzero
    have hlt : (q : ℚ) < y := lt_of_mul_lt_mul_right (by linarith) hpos.le
    have hlt' : y < q + 1 := lt_of_mul_lt_mul_right (by linarith) hpos.le
    cases horder : compare (2 * r) d with
    | lt =>
      have hcast : (2 * r : ℚ) < d := by exact_mod_cast compare_lt_iff_lt.mp horder
      exact represents_below hlt (lt_of_mul_lt_mul_right (by linarith) hpos.le)
    | eq =>
      have hcast : (2 * r : ℚ) = d := by exact_mod_cast compare_eq_iff_eq.mp horder
      exact represents_half (mul_right_cancel₀ hpos.ne' (by linarith))
    | gt =>
      have hcast : (d : ℚ) < 2 * r := by exact_mod_cast compare_gt_iff_gt.mp horder
      exact represents_above (lt_of_mul_lt_mul_right (by linarith) hpos.le) hlt'

/-- A number that is not negative in its canonical form, with a mantissa of 53 bits or the least exponent. -/
inductive Stands : UnpackedFloat → ℚ → Prop
  | zero (s : Sign) : Stands (.zero s) 0
  | finite {m : ℕ} {e : ℤ} (hm : 0 < m) : m < 2 ^ 53 → -1074 ≤ e → (e = -1074 ∨ 2 ^ 52 ≤ m) →
      Stands (.finite .positive m e hm) (m * 2 ^ e)

/-- The exponent that a mantissa gets. -/
def gridExponent (m : ℕ) (e : ℤ) : ℤ := e + lostBits m e

/-- The mantissa in its grid. -/
def gridMantissa (m : ℕ) (e : ℤ) (acc : Accuracy) : ℕ :=
  (ExtendedMantissa.ofMantissaAndAccuracy m acc >>> lostBits m e).roundedMantissa

theorem roundWithAccuracy_eq_grid (s : Sign) (m : ℕ) (e : ℤ) (acc : Accuracy) :
    roundWithAccuracy .binary64 s m e acc =
      let n := gridMantissa m e acc
      let k := gridExponent m e
      let em := ExtendedMantissa.ofMantissaAndAccuracy n .exact >>> lostBits n k
      if h : em.mantissa = 0 then .zero s
      else .finite s em.mantissa (k + lostBits n k) (Nat.pos_of_ne_zero h) := rfl

section

variable {m : ℕ} {e : ℤ} {acc : Accuracy} {x : ℚ}

theorem onGrid_gridExponent (hfine : e ≤ -1074 ∨ 2 ^ 52 ≤ m) (h : Represents (.ofMantissaAndAccuracy m acc) (x / 2 ^ e)) :
    OnGrid x (gridExponent m e) := by
  have hpos := two_zpow_pos e
  have hle : (m : ℚ) * 2 ^ e ≤ x := (le_div_iff₀ hpos).mp (mantissa_ofMantissaAndAccuracy m acc ▸ h.mantissa_le)
  have hlt : x < (m + 1 : ℕ) * 2 ^ e := by
    rw [← div_lt_iff₀ hpos]
    exact mantissa_ofMantissaAndAccuracy m acc ▸ h.lt_mantissa_succ
  have hk : gridExponent m e = max ((m.log2 : ℤ) + e - 52) (-1074) := by
    have hlog : e ≤ -1074 ∨ 52 ≤ m.log2 := hfine.imp_right le_log2_of_le
    simp only [gridExponent, lostBits]
    omega
  refine ⟨(mul_nonneg (Nat.cast_nonneg m) hpos.le).trans hle, by omega, ?_, ?_⟩
  · have hbound : ((m + 1 : ℕ) : ℚ) ≤ (2 ^ (m.log2 + 1) : ℕ) := by exact_mod_cast Nat.lt_log2_self
    calc x < (m + 1 : ℕ) * 2 ^ e := hlt
      _ ≤ (2 ^ (m.log2 + 1) : ℕ) * 2 ^ e := mul_le_mul_of_nonneg_right hbound hpos.le
      _ = 2 ^ ((m.log2 + 1 : ℕ) + e) := (two_zpow_natCast_add _ e).symm
      _ ≤ 2 ^ (53 + gridExponent m e) := two_zpow_le (by push_cast; omega)
  · by_cases hleast : gridExponent m e = -1074
    · exact .inl hleast
    · have hne : m ≠ 0 := by
        rintro rfl
        rw [Nat.log2_zero] at hk
        omega
      have hself : ((2 ^ m.log2 : ℕ) : ℚ) ≤ m := by exact_mod_cast Nat.log2_self_le hne
      refine .inr ?_
      calc (2 : ℚ) ^ (52 + gridExponent m e) ≤ 2 ^ ((m.log2 : ℕ) + e) := two_zpow_le (by omega)
        _ = (2 ^ m.log2 : ℕ) * 2 ^ e := two_zpow_natCast_add _ e
        _ ≤ m * 2 ^ e := mul_le_mul_of_nonneg_right hself hpos.le
        _ ≤ x := hle

theorem nearestEven_gridMantissa (h : Represents (.ofMantissaAndAccuracy m acc) (x / 2 ^ e)) :
    NearestEven (x / 2 ^ gridExponent m e) (gridMantissa m e acc) := by
  have hshifted := (h.shiftRight (lostBits m e)).nearestEven
  have hpower : x / 2 ^ e / 2 ^ lostBits m e = x / 2 ^ gridExponent m e := by
    rw [div_div, gridExponent, zpow_add₀ two_ne_zero, zpow_natCast]
  rwa [hpower] at hshifted

theorem stands_dite {n : ℕ} {k : ℤ} {s : Sign} (hn : n < 2 ^ 53) (hk : -1074 ≤ k) (hfull : k = -1074 ∨ 2 ^ 52 ≤ n) :
    Stands (if h : n = 0 then .zero s else .finite .positive n k (Nat.pos_of_ne_zero h)) (n * 2 ^ k) := by
  split_ifs with hzero
  · rw [hzero, Nat.cast_zero, zero_mul]
    exact .zero s
  · exact .finite _ hn hk hfull

/-- A mantissa in its grid is canonical, or it is the next power of two and loses a bit. -/
theorem finalMantissa_of_le {n : ℕ} {k : ℤ} (hn : n ≤ 2 ^ 53) (hk : -1074 ≤ k) (hfull : k = -1074 ∨ 2 ^ 52 ≤ n) :
    (ExtendedMantissa.ofMantissaAndAccuracy n .exact >>> lostBits n k).mantissa < 2 ^ 53 ∧
      (k + lostBits n k = -1074 ∨ 2 ^ 52 ≤ (ExtendedMantissa.ofMantissaAndAccuracy n .exact >>> lostBits n k).mantissa) ∧
      (n : ℚ) * 2 ^ k =
        (ExtendedMantissa.ofMantissaAndAccuracy n .exact >>> lostBits n k).mantissa * 2 ^ (k + lostBits n k : ℤ) := by
  rcases hn.lt_or_eq with hlt | rfl
  · have hkept : lostBits n k = 0 := by
      have hlog := log2_lt_of_lt (by decide) hlt
      simp only [lostBits]
      omega
    have hsame : (ExtendedMantissa.ofMantissaAndAccuracy n .exact >>> 0).mantissa = n := rfl
    rw [hkept, hsame, Nat.cast_zero, add_zero]
    exact ⟨hlt, hfull, rfl⟩
  · have hlost : lostBits (2 ^ 53) k = 1 := by
      simp only [lostBits, Nat.log2_two_pow]
      omega
    have hhalf : (ExtendedMantissa.ofMantissaAndAccuracy (2 ^ 53) .exact >>> 1).mantissa = 2 ^ 52 := rfl
    rw [hlost, hhalf, Nat.cast_one, zpow_add₀ two_ne_zero]
    refine ⟨by decide, .inr le_rfl, ?_⟩
    push_cast
    ring

/-- A mantissa with its accuracy is rounded to the nearest double. -/
theorem stands_roundWithAccuracy (hfine : e ≤ -1074 ∨ 2 ^ 52 ≤ m)
    (h : Represents (.ofMantissaAndAccuracy m acc) (x / 2 ^ e)) :
    ∃ w, Rounds x w ∧ Stands (roundWithAccuracy .binary64 .positive m e acc) w := by
  have hgrid := onGrid_gridExponent hfine h
  have hnearest := nearestEven_gridMantissa h
  refine ⟨_, ⟨_, _, hgrid, hnearest, rfl⟩, ?_⟩
  have hle := hgrid.nearest_le hnearest
  have hfull : gridExponent m e = -1074 ∨ 2 ^ 52 ≤ gridMantissa m e acc := by
    by_cases hleast : gridExponent m e = -1074
    · exact .inl hleast
    · exact .inr (hgrid.le_nearest hleast hnearest)
  have hleast := hgrid.least_le
  rw [roundWithAccuracy_eq_grid]
  generalize gridMantissa m e acc = n at *
  generalize gridExponent m e = k at *
  obtain ⟨hmantissa, hfull', hvalue⟩ := finalMantissa_of_le hle hleast hfull
  rw [hvalue]
  exact stands_dite hmantissa (by omega) hfull'

end

end Rounding

section Packing

theorem unpackSign_packComponents {s : Sign} {e : BitVec Format.binary64.exponentBits}
    {m : BitVec Format.binary64.mantissaBitsWithoutImplicit} :
    unpackSign (packComponents .binary64 s e m) = s.toBitVec := by
  ext i hi
  obtain rfl : i = 0 := by omega
  have hbit : (s.toBitVec ++ e ++ m).getLsbD 63 = s.toBitVec[0] := by
    rw [BitVec.getLsbD_append, if_neg (by decide), BitVec.getLsbD_append, if_neg (by decide)]
    rfl
  simp [unpackSign, packComponents, hbit]

theorem ofBitVec_toBitVec (s : Sign) : Sign.ofBitVec s.toBitVec = s := by
  cases s <;> rfl

theorem toNat_implicit_append (m : BitVec 52) : (1#1 ++ m).toNat = 2 ^ 52 + m.toNat := by
  rw [BitVec.toNat_append, ← Nat.shiftLeft_add_eq_or_of_lt m.isLt]
  rfl

section Components

variable {s : Sign} {e : BitVec Format.binary64.exponentBits} {m : BitVec Format.binary64.mantissaBitsWithoutImplicit}
  {n : ℕ} {k : ℤ}

/-- Between the least and the greatest exponent bits the mantissa has its implicit bit. -/
theorem unpack_packComponents_normal (hzero : e.toNat ≠ 0) (hspecial : e.toNat ≠ 2047) (hmantissa : 2 ^ 52 + m.toNat = n)
    (hexponent : (e.toNat : ℤ) - 1075 = k) (hn : 0 < n) :
    unpack .binary64 (packComponents .binary64 s e m) = .finite s n k hn := by
  have hne : e ≠ 0#_ := by
    rintro rfl
    exact hzero rfl
  simp only [unpack, unpackMantissa_packComponents, unpackExponent_packComponents, unpackSign_packComponents,
    ofBitVec_toBitVec, if_neg (toNat_of_ne_neg_one.mpr hspecial), if_neg hne]
  rw [UnpackedFloat.finite.injEq]
  refine ⟨rfl, (toNat_implicit_append m).trans hmantissa, ?_⟩
  rw [exponentBias_binary64, ← hexponent]
  rfl

theorem unpack_packComponents_least (hmantissa : m.toNat = n) (hn : 0 < n) :
    unpack .binary64 (packComponents .binary64 s 0#_ m) = .finite s n (-1074) hn := by
  have hspecial : (0#_ : BitVec Format.binary64.exponentBits) ≠ -1#_ := by decide
  have hne : m ≠ 0#_ := by
    rintro rfl
    exact hn.ne hmantissa
  simp only [unpack, unpackMantissa_packComponents, unpackExponent_packComponents, unpackSign_packComponents,
    ofBitVec_toBitVec, if_neg hspecial, if_true, dif_neg hne]
  rw [UnpackedFloat.finite.injEq, exponentBias_binary64]
  exact ⟨rfl, hmantissa, rfl⟩

end Components

theorem unpack_pack_finite (s : Sign) {m : ℕ} {e : ℤ} (hm : 0 < m) (hlt : m < 2 ^ 53) (hleast : -1074 ≤ e)
    (he : e ≤ 971) (hfull : e = -1074 ∨ 2 ^ 52 ≤ m) :
    unpack .binary64 (pack .binary64 (.finite s m e hm)) = .finite s m e hm := by
  have hbits : 2 ^ Format.binary64.exponentBits = 2048 := rfl
  have hmantissa : Format.binary64.mantissaBits = 53 := rfl
  simp only [pack, exponentBias_binary64, mantissaBits_binary64, hmantissa]
  split_ifs with hoverflow hnormal
  · omega
  · have hbiased : (BitVec.ofNat Format.binary64.exponentBits (e + (1023 : ℕ) + (52 : ℕ)).toNat).toNat = (e + 1075).toNat := by
      rw [BitVec.toNat_ofNat, Nat.mod_eq_of_lt (by omega)]
      omega
    have hself : 2 ^ m.log2 ≤ m := Nat.log2_self_le hm.ne'
    have hlog : m.log2 = 52 := by omega
    rw [hlog] at hself
    apply unpack_packComponents_normal
    · rw [hbiased]
      omega
    · rw [hbiased]
      omega
    · rw [BitVec.toNat_ofNat, mantissaBits_binary64]
      omega
    · rw [hbiased]
      omega
  · have hlog : m.log2 < 53 := log2_lt_of_lt (by decide) hlt
    have hsmall : m < 2 ^ 52 := (Nat.log2_lt hm.ne').mp (by omega)
    obtain rfl : e = -1074 := hfull.resolve_right (by omega)
    apply unpack_packComponents_least
    rw [BitVec.toNat_ofNat, Nat.mod_eq_of_lt hsmall]

end Packing

section Amounts

/-- The exact value of a number; what is not finite has none and counts as above all numbers. -/
def exactValue : UnpackedFloat → WithTop ℚ
  | .infinity _ | .notANumber => ⊤
  | .zero _ => (0 : ℚ)
  | .finite s m e _ => (((s.apply m : ℤ) : ℚ) * 2 ^ e : ℚ)

def amount (x : Float) : WithTop ℚ := exactValue x.toModel.unpack

/-- The value of a double, or the lack of one beyond the greatest double. -/
def bounded (w : ℚ) : WithTop ℚ := if w < 2 ^ (1024 : ℤ) then w else ⊤

theorem bounded_mono {v w : ℚ} (h : v ≤ w) : bounded v ≤ bounded w := by
  unfold bounded
  split_ifs with hv hw
  · exact_mod_cast h
  · exact le_top
  · exact absurd (h.trans_lt ‹_›) hv
  · exact le_rfl

theorem bounded_nonneg {w : ℚ} (h : 0 ≤ w) : 0 ≤ bounded w := by
  unfold bounded
  split_ifs
  · exact_mod_cast h
  · exact le_top

variable {u : UnpackedFloat} {v w : ℚ}

theorem Stands.exactValue (h : Stands u w) : exactValue u = w := by
  cases h with
  | zero s => rfl
  | finite hm => rfl

theorem lt_bound_iff {m : ℕ} {e : ℤ} (hlt : m < 2 ^ 53) (hfull : e = -1074 ∨ 2 ^ 52 ≤ m) :
    (m : ℚ) * 2 ^ e < 2 ^ (1024 : ℤ) ↔ e ≤ 971 := by
  constructor
  · intro h
    by_contra hexponent
    have hge : ((2 ^ 52 : ℕ) : ℚ) ≤ m := by exact_mod_cast hfull.resolve_left (by omega)
    apply absurd h (not_lt.mpr _)
    calc (2 : ℚ) ^ (1024 : ℤ) = 2 ^ ((52 : ℕ) + (972 : ℤ)) := rfl
      _ = (2 ^ 52 : ℕ) * 2 ^ (972 : ℤ) := two_zpow_natCast_add 52 972
      _ ≤ m * 2 ^ e := mul_le_mul hge (two_zpow_le (by omega)) (two_zpow_pos _).le (Nat.cast_nonneg m)
  · intro hexponent
    have hcast : (m : ℚ) < (2 ^ 53 : ℕ) := by exact_mod_cast hlt
    calc (m : ℚ) * 2 ^ e ≤ m * 2 ^ (971 : ℤ) := mul_le_mul_of_nonneg_left (two_zpow_le hexponent) (Nat.cast_nonneg m)
      _ < (2 ^ 53 : ℕ) * 2 ^ (971 : ℤ) := mul_lt_mul_of_pos_right hcast (two_zpow_pos _)
      _ = 2 ^ ((53 : ℕ) + (971 : ℤ)) := (two_zpow_natCast_add 53 971).symm
      _ = 2 ^ (1024 : ℤ) := rfl

/-- What is packed is unpacked without a change, or it is beyond the bound and becomes infinite. -/
theorem Stands.unpack_pack (h : Stands u w) :
    unpack .binary64 (pack .binary64 u) = u ∧ w < 2 ^ (1024 : ℤ) ∨
      unpack .binary64 (pack .binary64 u) = .infinity .positive ∧ ¬w < 2 ^ (1024 : ℤ) := by
  cases h with
  | zero s =>
    refine .inl ⟨?_, two_zpow_pos 1024⟩
    cases s <;> rfl
  | @finite m e hm hlt hleast hfull =>
    by_cases he : e ≤ 971
    · exact .inl ⟨unpack_pack_finite _ hm hlt hleast he hfull, (lt_bound_iff hlt hfull).mpr he⟩
    · refine .inr ⟨?_, fun h => he ((lt_bound_iff hlt hfull).mp h)⟩
      rw [pack_of_lt _ _ hm (not_le.mp he), unpack_packedInfinity]

theorem Stands.exactValue_unpack_pack (h : Stands u w) :
    Number.exactValue (unpack .binary64 (pack .binary64 u)) = bounded w := by
  rcases h.unpack_pack with ⟨hsame, hlt⟩ | ⟨hinfinite, hlt⟩
  · rw [hsame, bounded, if_pos hlt, h.exactValue]
  · rw [hinfinite, bounded, if_neg hlt]
    rfl

end Amounts

end CommentGrade.Number
