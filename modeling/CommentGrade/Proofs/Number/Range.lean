import CommentGrade.Number.Measure
import Mathlib

/-!
# The range of doubles

A whole number has a nearest double that is finite exactly if it is less than half a step above the greatest double. To
round is to drop the low bits of a mantissa and to look at the first of them; half a step above the greatest double the
first one is set behind an odd mantissa, so the mantissa grows by a bit and the exponent reaches the one that stands for
infinity.
-/
namespace CommentGrade.Number

open Float.Model (Format UnpackedFloat totalExponent)
open Float.Model.UnpackedFloat

section Shifts

/-- A mantissa with the round bit behind it. -/
def halves (em : ExtendedMantissa) : Nat := 2 * em.mantissa + em.roundBit.toNat

/-- What is left of a whole number without its last bits: its double is cut off half a bit further on. -/
structure Keeps (em : ExtendedMantissa) (m shift : Nat) : Prop where
  le : halves em * 2 ^ shift ≤ 2 * m
  lt : 2 * m < (halves em + 1) * 2 ^ shift

theorem halves_shiftRightOne (em : ExtendedMantissa) : halves em.shiftRightOne = em.mantissa := by
  rcases Nat.mod_two_eq_zero_or_one em.mantissa with h | h <;>
    simp [halves, ExtendedMantissa.shiftRightOne, h] <;> omega

theorem Keeps.shiftRightOne {em : ExtendedMantissa} {m shift : Nat} (h : Keeps em m shift) :
    Keeps em.shiftRightOne m (shift + 1) := by
  have hle : 2 * em.mantissa ≤ halves em := Nat.le_add_right _ _
  have hlt : halves em + 1 ≤ 2 * (em.mantissa + 1) := by
    have hbit : em.roundBit.toNat ≤ 1 := Bool.toNat_le em.roundBit
    simp only [halves]
    omega
  rw [← halves_shiftRightOne em] at hle hlt
  constructor
  · calc halves em.shiftRightOne * 2 ^ (shift + 1) = 2 * halves em.shiftRightOne * 2 ^ shift := by ring
      _ ≤ halves em * 2 ^ shift := Nat.mul_le_mul_right _ hle
      _ ≤ 2 * m := h.le
  · calc 2 * m < (halves em + 1) * 2 ^ shift := h.lt
      _ ≤ 2 * (halves em.shiftRightOne + 1) * 2 ^ shift := Nat.mul_le_mul_right _ hlt
      _ = (halves em.shiftRightOne + 1) * 2 ^ (shift + 1) := by ring

theorem keeps_shiftRight (m shift : Nat) :
    Keeps (ExtendedMantissa.ofMantissaAndAccuracy m .exact >>> shift) m shift := by
  induction shift with
  | zero =>
    have hnone : ExtendedMantissa.ofMantissaAndAccuracy m .exact >>> 0 = ⟨m, false, false⟩ := rfl
    constructor <;> simp [hnone, halves]
  | succ shift ih => exact ih.shiftRightOne

/-- Rounding does not pass a whole number that the exact value is less than half a step above. -/
theorem Keeps.roundedMantissa_le {em : ExtendedMantissa} {m shift c : Nat} (h : Keeps em m shift)
    (hc : 2 * m < (2 * c + 1) * 2 ^ shift) : em.roundedMantissa ≤ c := by
  have hhalves : halves em < 2 * c + 1 := Nat.lt_of_mul_lt_mul_right (h.le.trans_lt hc)
  obtain ⟨mantissa, round, sticky⟩ := em
  cases round <;> cases sticky <;>
    simp only [halves, Bool.toNat_false, Bool.toNat_true, ExtendedMantissa.roundedMantissa,
      ExtendedMantissa.accuracy, Accuracy.roundToNearestEven] at hhalves ⊢ <;> omega

/-- Rounding passes an odd number that the exact value is at least half a step above. -/
theorem Keeps.lt_roundedMantissa {em : ExtendedMantissa} {m shift c : Nat} (h : Keeps em m shift) (hodd : c % 2 = 1)
    (hc : (2 * c + 1) * 2 ^ shift ≤ 2 * m) : c < em.roundedMantissa := by
  have hhalves : 2 * c + 1 < halves em + 1 := Nat.lt_of_mul_lt_mul_right (hc.trans_lt h.lt)
  obtain ⟨mantissa, round, sticky⟩ := em
  cases round <;> cases sticky <;>
    simp only [halves, Bool.toNat_false, Bool.toNat_true, ExtendedMantissa.roundedMantissa,
      ExtendedMantissa.accuracy, Accuracy.roundToNearestEven] at hhalves ⊢ <;> omega

theorem Keeps.lt_two_pow {em : ExtendedMantissa} {m shift : Nat} (h : Keeps em m shift) (hzero : em.mantissa = 0) :
    m < 2 ^ shift := by
  have hhalves : halves em + 1 ≤ 2 := by
    have hbit : em.roundBit.toNat ≤ 1 := Bool.toNat_le em.roundBit
    simp only [halves, hzero]
    omega
  have hlt : 2 * m < 2 * 2 ^ shift := h.lt.trans_le (Nat.mul_le_mul_right _ hhalves)
  omega

end Shifts

section Rounding

/-- The greatest double. -/
def greatestDouble : Nat := (2 ^ 53 - 1) * 2 ^ 971

/-- The least whole number that is half a step above the greatest double. -/
def overflowBound : Nat := (2 ^ 54 - 1) * 2 ^ 970

theorem le_greatestDouble {n : Nat} (h : n ≤ 2 ^ 53 - 1) : n ≤ greatestDouble := by
  have hstep : ∀ k : Nat, 2 ^ 53 - 1 ≤ (2 ^ 53 - 1) * 2 ^ k := fun k =>
    Nat.le_mul_of_pos_right _ (Nat.two_pow_pos k)
  rw [greatestDouble]
  exact h.trans (hstep 971)

theorem greatestDouble_lt : greatestDouble < overflowBound := by
  have hstep : ∀ k : Nat, (2 ^ 53 - 1) * 2 ^ (k + 1) < (2 ^ 54 - 1) * 2 ^ k := by
    intro k
    have hpos := Nat.two_pow_pos k
    rw [Nat.pow_succ]
    omega
  have hexponent : 971 = 970 + 1 := rfl
  rw [greatestDouble, overflowBound, hexponent]
  exact hstep 970

theorem mantissa_mul_lt {k d : Nat} (h : 54 + k ≤ 3 * d) : (2 ^ 54 - 1) * 2 ^ k < 10 ^ d :=
  calc (2 ^ 54 - 1) * 2 ^ k < 2 ^ 54 * 2 ^ k := Nat.mul_lt_mul_of_pos_right (by decide) (Nat.two_pow_pos k)
    _ = 2 ^ (54 + k) := (Nat.pow_add 2 54 k).symm
    _ ≤ 2 ^ (3 * d) := Nat.pow_le_pow_right (by decide) h
    _ = (2 ^ 3) ^ d := Nat.pow_mul 2 3 d
    _ ≤ 10 ^ d := Nat.pow_le_pow_left (by decide) d

theorem overflowBound_lt : overflowBound < 10 ^ 400 := by
  have hdigits : 54 + 970 ≤ 3 * 400 := by decide
  rw [overflowBound]
  exact mantissa_mul_lt hdigits

theorem two_pow_le_overflowBound : 2 ^ 53 ≤ overflowBound := by
  have hstep : ∀ k : Nat, 2 ^ 53 ≤ (2 ^ 54 - 1) * 2 ^ k := by
    intro k
    have hpos := Nat.two_pow_pos k
    omega
  rw [overflowBound]
  exact hstep 970

/-- A mantissa with an exponent whose value is less than half a step above the greatest double. -/
def Fits (m : Nat) (e : Int) : Prop := 2 * m < (2 ^ 54 - 1) * 2 ^ (971 - e).toNat

theorem fits_zero_iff {n : Nat} : Fits n 0 ↔ n < overflowBound := by
  have hstep : ∀ k : Nat, 2 * n < (2 ^ 54 - 1) * 2 ^ (k + 1) ↔ n < (2 ^ 54 - 1) * 2 ^ k := by
    intro k
    rw [Nat.pow_succ]
    omega
  have hexponent : ((971 : Int) - 0).toNat = 970 + 1 := rfl
  rw [Fits, overflowBound, hexponent]
  exact hstep 970

theorem fits_shifted_iff {m : Nat} {e : Int} (he : e ≤ 971) (k : Nat) : Fits (m * 2 ^ k) (e - k) ↔ Fits m e := by
  have hexponent : (971 - (e - k)).toNat = (971 - e).toNat + k := by omega
  rw [Fits, Fits, hexponent, Nat.pow_add, ← Nat.mul_assoc, ← Nat.mul_assoc,
    Nat.mul_lt_mul_right (Nat.two_pow_pos k)]

/-- A double that is zero or has an exponent in the range. -/
def InRange : UnpackedFloat → Prop
  | .zero _ => True
  | .finite _ _ e _ => e ≤ 971
  | .infinity _ | .notANumber => False

theorem log2_lt_of_lt {n k : Nat} (hk : 0 < k) (h : n < 2 ^ k) : n.log2 < k := by
  rcases Nat.eq_zero_or_pos n with rfl | hn
  · simpa using hk
  · exact (Nat.log2_lt hn.ne').mpr h

theorem le_log2_of_le {n k : Nat} (h : 2 ^ k ≤ n) : k ≤ n.log2 :=
  (Nat.le_log2 ((Nat.two_pow_pos k).trans_le h).ne').mpr h

/-- How many bits a mantissa loses. -/
def lostBits (m : Nat) (e : Int) : Nat := (max ((m.log2 : Int) + 1 + e - 53) (-1074) - e).toNat

/-- A mantissa without the bits that it loses, rounded. -/
def roundedOnce (m : Nat) (e : Int) : Nat :=
  (ExtendedMantissa.ofMantissaAndAccuracy m .exact >>> lostBits m e).roundedMantissa

/-- After the first rounding the mantissa may have one bit too many, which it loses. -/
def finalMantissa (m : Nat) (e : Int) : Nat :=
  (ExtendedMantissa.ofMantissaAndAccuracy (roundedOnce m e) .exact >>>
    lostBits (roundedOnce m e) (e + lostBits m e)).mantissa

def finalExponent (m : Nat) (e : Int) : Int := e + lostBits m e + lostBits (roundedOnce m e) (e + lostBits m e)

theorem roundWithAccuracy_eq (s : Sign) (m : Nat) (e : Int) :
    roundWithAccuracy .binary64 s m e .exact =
      if h : finalMantissa m e = 0 then .zero s
      else .finite s (finalMantissa m e) (finalExponent m e) (Nat.pos_of_ne_zero h) := rfl

section

variable {m : Nat} {e : Int}

theorem finalMantissa_ne_zero (h : roundedOnce m e ≠ 0) : finalMantissa m e ≠ 0 := by
  intro hzero
  have hless := (keeps_shiftRight (roundedOnce m e) (lostBits (roundedOnce m e) (e + lostBits m e))).lt_two_pow hzero
  have hlog : (roundedOnce m e).log2 < lostBits (roundedOnce m e) (e + lostBits m e) := (Nat.log2_lt h).mpr hless
  simp only [lostBits] at hlog
  omega

/-- The mantissa that is left has 53 bits, or it is the next power of two. -/
theorem roundedOnce_le (m : Nat) (e : Int) : roundedOnce m e ≤ 2 ^ 53 := by
  apply (keeps_shiftRight m (lostBits m e)).roundedMantissa_le
  have hbits : m.log2 + 1 ≤ 53 + lostBits m e := by
    simp only [lostBits]
    omega
  calc 2 * m < 2 * 2 ^ (m.log2 + 1) := Nat.mul_lt_mul_of_pos_left Nat.lt_log2_self (by decide)
    _ ≤ 2 * 2 ^ (53 + lostBits m e) := Nat.mul_le_mul_left 2 (Nat.pow_le_pow_right (by decide) hbits)
    _ = 2 * 2 ^ 53 * 2 ^ lostBits m e := by rw [Nat.pow_add, Nat.mul_assoc]
    _ ≤ (2 * 2 ^ 53 + 1) * 2 ^ lostBits m e := Nat.mul_le_mul_right _ (Nat.le_add_right _ 1)

theorem finalExponent_le (he : e ≤ 971) (h : Fits m e) : finalExponent m e ≤ 971 := by
  have hlog : m.log2 < 53 + (971 - e).toNat := by
    apply log2_lt_of_lt (by omega)
    have hlt : 2 * m < 2 * 2 ^ (53 + (971 - e).toNat) := by
      calc 2 * m < (2 ^ 54 - 1) * 2 ^ (971 - e).toNat := h
        _ ≤ 2 * 2 ^ 53 * 2 ^ (971 - e).toNat := Nat.mul_le_mul_right _ (by decide)
        _ = 2 * 2 ^ (53 + (971 - e).toNat) := by rw [Nat.pow_add, Nat.mul_assoc]
    omega
  -- with the greatest exponent the next power of two is not reached, because the value is in the range
  have hlast : e + lostBits m e = 971 → roundedOnce m e ≤ 2 ^ 53 - 1 := by
    intro hexponent
    apply (keeps_shiftRight m (lostBits m e)).roundedMantissa_le
    have hshift : lostBits m e = (971 - e).toNat := by omega
    rw [hshift]
    exact h
  have hfirst : e + lostBits m e ≤ 971 ∧ -1074 ≤ e + lostBits m e := by
    simp only [lostBits]
    omega
  rw [finalExponent]
  generalize e + (lostBits m e : Int) = first at hlast hfirst ⊢
  rcases (roundedOnce_le m e).lt_or_eq with hlt | heq
  · have hsmall : (roundedOnce m e).log2 < 53 := log2_lt_of_lt (by decide) hlt
    simp only [lostBits]
    omega
  · have hlog2 : (roundedOnce m e).log2 = 53 := by rw [heq, Nat.log2_two_pow]
    have hne : first ≠ 971 := fun hexponent => absurd (hlast hexponent) (by omega)
    simp only [lostBits, hlog2]
    omega

/-- From half a step above the greatest double on the exponent is beyond the range. -/
theorem lt_finalExponent (he : e ≤ 971) (h : ¬Fits m e) : roundedOnce m e ≠ 0 ∧ 971 < finalExponent m e := by
  have hle : (2 ^ 54 - 1) * 2 ^ (971 - e).toNat ≤ 2 * m := Nat.not_lt.mp h
  have hpos := Nat.two_pow_pos (971 - e).toNat
  have hlog : 52 + (971 - e).toNat ≤ m.log2 := by
    apply le_log2_of_le
    rw [Nat.pow_add]
    omega
  have hshift : lostBits m e + 52 = m.log2 := by
    simp only [lostBits]
    omega
  have hself : 2 ^ 52 * 2 ^ lostBits m e ≤ m := by
    rw [← Nat.pow_add, Nat.add_comm, hshift]
    exact Nat.log2_self_le (by omega)
  have hkeeps := keeps_shiftRight m (lostBits m e)
  have hrounded : 2 ^ 52 - 1 < roundedOnce m e := by
    apply hkeeps.lt_roundedMantissa (by decide)
    have hpos := Nat.two_pow_pos (lostBits m e)
    omega
  refine ⟨by omega, ?_⟩
  rw [finalExponent]
  rcases Nat.lt_or_ge (971 - e).toNat (lostBits m e) with hlt | hge
  · omega
  · have hexponent : lostBits m e = (971 - e).toNat := by omega
    have hnext : 2 ^ 53 - 1 < roundedOnce m e := by
      apply hkeeps.lt_roundedMantissa (by decide)
      rw [hexponent]
      exact hle
    have hlog2 : 53 ≤ (roundedOnce m e).log2 := le_log2_of_le (by omega)
    have hfirst : e + lostBits m e = 971 := by omega
    rw [hfirst]
    simp only [lostBits]
    omega

end

/-- A mantissa and an exponent are rounded within the range exactly if their value is less than half a step above the
greatest double. -/
theorem inRange_roundWithAccuracy_iff (s : Sign) {m : Nat} {e : Int} (he : e ≤ 971) :
    InRange (roundWithAccuracy .binary64 s m e .exact) ↔ Fits m e := by
  rw [roundWithAccuracy_eq]
  constructor
  · intro hrange
    by_contra hfits
    obtain ⟨hrounded, hexponent⟩ := lt_finalExponent he hfits
    rw [dif_neg (finalMantissa_ne_zero hrounded)] at hrange
    exact absurd hrange (Int.not_le.mpr hexponent)
  · intro hfits
    split
    · trivial
    · exact finalExponent_le he hfits

theorem exponentBias_binary64 : Format.binary64.exponentBias = 1023 := by
  decide

theorem mantissaBits_binary64 : Format.binary64.mantissaBitsWithoutImplicit = 52 := rfl

theorem toNat_of_ne_neg_one {e : BitVec Format.binary64.exponentBits} : e ≠ -1#_ ↔ e.toNat ≠ 2047 := by
  rw [Ne, ← BitVec.toNat_inj]
  rfl

theorem isFinite_unpack_pack {u : UnpackedFloat} (h : InRange u) :
    (unpack .binary64 (pack .binary64 u)).isFinite = true := by
  have hfinite : ∀ s e m, e ≠ -1#_ → (unpack .binary64 (packComponents .binary64 s e m)).isFinite = true := by
    intro s e m he
    simp only [unpack, unpackMantissa_packComponents, unpackExponent_packComponents, if_neg he]
    split_ifs <;> rfl
  have hzero : (0 : BitVec Format.binary64.exponentBits) ≠ -1#_ := by decide
  cases u with
  | infinity s | notANumber => exact h.elim
  | zero s => exact hfinite s 0 0 hzero
  | finite s m e hm =>
    have he : e ≤ 971 := h
    have hbits : 2 ^ Format.binary64.exponentBits = 2048 := rfl
    simp only [pack, exponentBias_binary64, mantissaBits_binary64]
    split_ifs with hoverflow hnormal
    · omega
    · apply hfinite
      rw [toNat_of_ne_neg_one, BitVec.toNat_ofNat, Nat.mod_eq_of_lt (by omega)]
      omega
    · exact hfinite s 0 _ hzero

theorem unpack_packedInfinity (s : Sign) : unpack .binary64 (packedInfinity .binary64 s) = .infinity s := by
  cases s <;> rfl

theorem pack_of_lt (s : Sign) (m : Nat) {e : Int} (hm : 0 < m) (he : 971 < e) :
    pack .binary64 (.finite s m e hm) = packedInfinity .binary64 s := by
  have hbits : 2 ^ Format.binary64.exponentBits = 2048 := rfl
  simp only [pack, exponentBias_binary64, mantissaBits_binary64]
  rw [if_pos (by omega)]

theorem bounds_of_unpack {b : BitVec 64} {s : Sign} {m : Nat} {e : Int} {hm : 0 < m}
    (h : unpack .binary64 b = .finite s m e hm) : m < 2 ^ 53 ∧ e ≤ 971 := by
  have hmantissa : (@unpackMantissa .binary64 b).toNat < 2 ^ 52 := BitVec.isLt _
  have himplicit : (1#1 ++ @unpackMantissa .binary64 b).toNat < 2 ^ 53 := BitVec.isLt _
  have hexponent : (@unpackExponent .binary64 b).toNat < 2 ^ 11 := BitVec.isLt _
  simp only [unpack, exponentBias_binary64, mantissaBits_binary64] at h
  split_ifs at h with hspecial hnan hzero hsmall
  · obtain ⟨-, rfl, rfl⟩ := UnpackedFloat.finite.inj h
    have hnone : (@unpackExponent .binary64 b).toNat = 0 := congrArg BitVec.toNat hzero
    exact ⟨by omega, by omega⟩
  · obtain ⟨-, rfl, rfl⟩ := UnpackedFloat.finite.inj h
    have hne := toNat_of_ne_neg_one.mp hspecial
    exact ⟨by omega, by omega⟩

theorem fits_of_lt {m : Nat} (h : m < 2 ^ 53) (e : Int) : Fits m e := by
  have hpos := Nat.two_pow_pos (971 - e).toNat
  calc 2 * m < 2 ^ 54 - 1 := by omega
    _ ≤ (2 ^ 54 - 1) * 2 ^ (971 - e).toNat := Nat.le_mul_of_pos_right _ hpos

theorem inRange_round (s : Sign) {m : Nat} {e : Int} (he : e ≤ 971) (hm : Fits m e) :
    InRange (UnpackedFloat.round .binary64 s m e) := by
  simp only [UnpackedFloat.round, decreaseExponent, Nat.shiftLeft_eq]
  exact (inRange_roundWithAccuracy_iff s (by omega)).mpr ((fits_shifted_iff he _).mpr hm)

end Rounding

section Doubles

theorem isFinite_ofModel_pack {u : UnpackedFloat} (h : InRange u) :
    (Float.ofModel (Float.Model.pack u)).isFinite = true :=
  isFinite_unpack_pack h

theorem isInf_iff {x : Float} : x.isInf = true ↔ ∃ s, x.toModel.unpack = .infinity s := by
  change x.toModel.unpack.isInf = true ↔ _
  cases x.toModel.unpack <;> simp [Float.Model.UnpackedFloat.isInf]

theorem isInf_packedInfinity {u : UnpackedFloat} {s : Sign} (h : pack .binary64 u = packedInfinity .binary64 s) :
    (Float.ofModel (Float.Model.pack u)).isInf = true := by
  refine isInf_iff.mpr ⟨s, ?_⟩
  change unpack .binary64 (pack .binary64 u) = .infinity s
  rw [h, unpack_packedInfinity]

theorem isInf_of_not_fits (s : Sign) {m : Nat} {e : Int} (he : e ≤ 971) (h : ¬Fits m e) :
    (Float.ofModel (Float.Model.pack (roundWithAccuracy .binary64 s m e .exact))).isInf = true := by
  obtain ⟨hrounded, hexponent⟩ := lt_finalExponent he h
  rw [roundWithAccuracy_eq, dif_neg (finalMantissa_ne_zero hrounded)]
  exact isInf_packedInfinity (pack_of_lt s _ _ hexponent)

theorem inRange_of_isFinite {x : Float} (hx : x.isFinite = true) : InRange x.toModel.unpack := by
  change x.toModel.unpack.isFinite = true at hx
  cases hu : x.toModel.unpack with
  | infinity s | notANumber =>
    rw [hu] at hx
    cases hx
  | zero s => trivial
  | finite s m e hm => exact (bounds_of_unpack hu).2

theorem isInf_of_isFinite {x : Float} (hx : x.isFinite = true) : x.isInf = false := by
  change x.toModel.unpack.isFinite = true at hx
  change x.toModel.unpack.isInf = false
  cases hu : x.toModel.unpack <;> simp_all [Float.Model.UnpackedFloat.isFinite, Float.Model.UnpackedFloat.isInf]

theorem InRange.neg {u : UnpackedFloat} (h : InRange u) : InRange u.neg := by
  cases u <;> exact h

theorem isFinite_signedFloat (negative : Bool) {x : Float} (hx : x.isFinite = true) :
    (signedFloat negative x).isFinite = true := by
  cases negative with
  | false => exact hx
  | true => exact isFinite_ofModel_pack (inRange_of_isFinite hx).neg

theorem isInf_signedFloat (negative : Bool) {x : Float} (hx : x.isInf = true) :
    (signedFloat negative x).isInf = true := by
  cases negative with
  | false => exact hx
  | true =>
    obtain ⟨s, hs⟩ := isInf_iff.mp hx
    apply isInf_packedInfinity (s := -s)
    rw [hs]
    rfl

/-- The product with one has the same value, and is rounded again. -/
theorem isFinite_mul_one {x : Float} (hx : x.isFinite = true) :
    (x * Float.ofBits 0x3FF0000000000000).isFinite = true := by
  have hone : (Float.ofBits 0x3FF0000000000000).toModel.unpack = .finite .positive (2 ^ 52) (-52) (by decide) := by rfl
  apply isFinite_ofModel_pack
  rw [hone]
  have hrange := inRange_of_isFinite hx
  cases hu : x.toModel.unpack with
  | infinity s | notANumber =>
    rw [hu] at hrange
    exact hrange.elim
  | zero s => trivial
  | finite s m e hm =>
    obtain ⟨hmantissa, hexponent⟩ := bounds_of_unpack hu
    have hfits : Fits (m * 2 ^ 52) (e - 52) := (fits_shifted_iff hexponent 52).mpr (fits_of_lt hmantissa e)
    exact (inRange_roundWithAccuracy_iff _ (by omega)).mpr hfits

theorem isFinite_toFloat {n : Nat} (hn : n < 2 ^ 53) : n.toUInt64.toFloat.isFinite = true := by
  apply isFinite_ofModel_pack
  have hsmall : n.toUInt64.toNat = n := UInt64.toNat_ofNat_of_lt' (hn.trans (by decide))
  simp only [ofUInt64, ofNat, ofInt, UnpackedFloat.normalize, hsmall]
  split
  · exact inRange_round _ (by decide) (fits_of_lt (by omega) 0)
  · trivial
  · exact inRange_round _ (by decide) (fits_of_lt hn 0)

/-- A decimal with an exponent that is not negative is a whole number, which is rounded. -/
theorem ofScientific_eq {n : Nat} (hn : 0 < n) {k : Nat} (hk : k ≤ 400) :
    ofScientific .binary64 n k =
      roundWithAccuracy .binary64 (.positive * .positive) (n * 10 ^ k * 2 ^ 53) (0 - (53 : Nat)) .exact := by
  have hlarge : ¬ (k : Int) > 2 ^ Format.binary64.exponentBits := by
    have hbits : (400 : Int) ≤ 2 ^ Format.binary64.exponentBits := by decide
    omega
  have hsmall : ¬ (k : Int) < -(2 ^ Format.binary64.exponentBits + n.log2) := by
    have hpos : (0 : Int) < 2 ^ Format.binary64.exponentBits := by decide
    omega
  have hscaled : n <<< 53 * 10 ^ k = n * 10 ^ k * 2 ^ 53 := by rw [Nat.shiftLeft_eq, Nat.mul_right_comm]
  rw [ofScientific, dif_neg hn.ne', if_neg hlarge, if_neg hsmall, if_pos (Int.natCast_nonneg k), ← hscaled]
  rfl

theorem fits_scaled_iff {n : Nat} : Fits (n * 2 ^ 53) (0 - (53 : Nat)) ↔ n < overflowBound :=
  (fits_shifted_iff (by decide) 53).trans fits_zero_iff

theorem inRange_ofScientific {n : Nat} (h : n < overflowBound) : InRange (ofScientific .binary64 n (0 : Nat)) := by
  rcases Nat.eq_zero_or_pos n with rfl | hn
  · exact True.intro
  · rw [ofScientific_eq hn (Nat.zero_le 400), Nat.pow_zero, Nat.mul_one, inRange_roundWithAccuracy_iff _ (by decide)]
    exact fits_scaled_iff.mpr h

theorem isFinite_ofScientific {n : Nat} (h : n < overflowBound) : (Float.ofScientific n false 0).isFinite = true := by
  unfold Float.ofScientific
  split
  · next hsmall => exact isFinite_mul_one (isFinite_toFloat hsmall.1)
  · exact isFinite_ofModel_pack (inRange_ofScientific h)

theorem isInf_ofScientific {n k : Nat} (hn : 0 < n) (hk : k ≤ 400) (hlarge : ¬(n < 2 ^ 53 ∧ k ≤ 22))
    (h : overflowBound ≤ n * 10 ^ k) : (Float.ofScientific n false k).isInf = true := by
  unfold Float.ofScientific
  rw [dif_neg hlarge]
  change (Float.ofModel (Float.Model.pack (ofScientific .binary64 n k))).isInf = true
  rw [ofScientific_eq hn hk]
  exact isInf_of_not_fits _ (by decide) fun hfits => absurd (fits_scaled_iff.mp hfits) (Nat.not_lt.mpr h)

theorem isFinite_nearestFloat {n : Nat} (h : n < overflowBound) : (nearestFloat n 0).isFinite = true := by
  have hlength : ∀ k, 0 < k → n < 10 ^ k → (toString n).length ≤ k := fun k hk hlt => by
    rw [Nat.toString_eq_repr]
    exact (Nat.length_repr_le_iff hk).mpr hlt
  have hsize := hlength 400 (by decide) (h.trans overflowBound_lt)
  unfold nearestFloat
  simp only [Int.add_zero]
  split_ifs with hzero hlarge
  · rfl
  · omega
  · omega
  · exact isFinite_ofScientific h

theorem isInf_nearestFloat {n : Nat} (h : overflowBound ≤ n) : (nearestFloat n 0).isInf = true := by
  have hlarge : 2 ^ 53 ≤ n := two_pow_le_overflowBound.trans h
  unfold nearestFloat
  simp only [Int.add_zero]
  split_ifs with hzero hdigits
  · omega
  · apply isInf_ofScientific (by decide) (by decide) (by decide)
    rw [Nat.one_mul]
    exact Nat.le_of_lt overflowBound_lt
  · omega
  · have hsame : n = n * 10 ^ 0 := by rw [Nat.pow_zero, Nat.mul_one]
    exact isInf_ofScientific (by omega) (by decide) (by omega) (hsame ▸ h)

theorem ofInt?_eq (n : Int) : (Measure.ofInt? n : Option Float) =
    if (signedFloat (decide (n < 0)) (nearestFloat n.natAbs 0)).isInf then none
    else some (signedFloat (decide (n < 0)) (nearestFloat n.natAbs 0)) := rfl

/-- A whole number less than half a step above the greatest double has a nearest double, which is finite. -/
theorem exists_ofInt?_isFinite {n : Int} (h : n.natAbs < overflowBound) :
    ∃ x : Float, Measure.ofInt? n = some x ∧ x.isFinite = true := by
  have hfinite := isFinite_signedFloat (decide (n < 0)) (isFinite_nearestFloat h)
  refine ⟨_, ?_, hfinite⟩
  rw [ofInt?_eq, isInf_of_isFinite hfinite]
  rfl

theorem ofInt?_eq_none {n : Int} (h : overflowBound ≤ n.natAbs) : (Measure.ofInt? n : Option Float) = none := by
  rw [ofInt?_eq, if_pos (isInf_signedFloat _ (isInf_nearestFloat h))]

end Doubles

end CommentGrade.Number
