import CommentGrade.Proofs.Number.Order
import CommentGrade.Proofs.ReadingTime.Clock
import CommentGrade.Proofs.Value.Results

/-!
# Reading times in doubles

With doubles every step is rounded, and each of them keeps the order. The minutes are taken off without a loss, so the
seconds behind them are sixty at most; hence a time with fewer full minutes is not above one with more, and with as many
minutes the seconds follow.
-/
namespace CommentGrade.ReadingTime

open Number

section Steps

variable {x y : Float} {v : ℚ} {k : ℤ}

/-- A double that is not negative and not above another one. -/
structure NotAbove (x y : Float) : Prop where
  nonneg : 0 ≤ amount x
  le : amount x ≤ amount y

/-- An operation that rounds the result of one that keeps the order. -/
theorem NotAbove.map (h : NotAbove x y) {f : ℚ → ℚ} {op : Float → Float} (hop : RoundsTo 0 f op)
    (hf : ∀ v w, 0 ≤ v → v ≤ w → f v ≤ f w) : NotAbove (op x) (op y) :=
  ⟨hop.nonneg h.nonneg, hop.mono hf h.nonneg h.le⟩

theorem amount_hundred : amount 100.0 = (100 : ℚ) := by
  have hunpack : (100.0 : Float).toModel.unpack = .finite .positive 7036874417766400 (-46) (by decide) := by rfl
  rw [amount_of_unpack hunpack]
  norm_num

theorem amount_sixty : amount 60.0 = (60 : ℚ) := by
  have hunpack : (60.0 : Float).toModel.unpack = .finite .positive 8444249301319680 (-47) (by decide) := by rfl
  rw [amount_of_unpack hunpack]
  norm_num

theorem amount_half : amount 0.5 = (1 / 2 : ℚ) := by
  have hunpack : (0.5 : Float).toModel.unpack = .finite .positive 4503599627370496 (-53) (by decide) := by rfl
  rw [amount_of_unpack hunpack]
  norm_num

theorem roundsTo_hundredfold : RoundsTo 0 (· * 100) (· * 100.0) := roundsTo_mul amount_hundred (by norm_num)

theorem roundsTo_hundredth : RoundsTo 0 (· / 100) (· / 100.0) := roundsTo_div amount_hundred (by norm_num)

theorem roundsTo_sixtyfold : RoundsTo 0 (· * 60) (· * 60.0) := roundsTo_mul amount_sixty (by norm_num)

theorem roundsTo_half_more : RoundsTo 0 (· + 1 / 2) (· + 0.5) := roundsTo_add amount_half (by norm_num)

theorem NotAbove.hundredfold (h : NotAbove x y) : NotAbove (x * 100.0) (y * 100.0) :=
  h.map roundsTo_hundredfold fun _ _ _ hvw => mul_le_mul_of_nonneg_right hvw (by norm_num)

theorem NotAbove.hundredth (h : NotAbove x y) : NotAbove (x / 100.0) (y / 100.0) :=
  h.map roundsTo_hundredth fun _ _ _ hvw => div_le_div_of_nonneg_right hvw (by norm_num)

theorem NotAbove.sixtyfold (h : NotAbove x y) : NotAbove (x * 60.0) (y * 60.0) :=
  h.map roundsTo_sixtyfold fun _ _ _ hvw => mul_le_mul_of_nonneg_right hvw (by norm_num)

theorem notAbove_ofNat {n m : ℕ} (h : n ≤ m) : NotAbove (Float.ofNat n) (Float.ofNat m) :=
  ⟨amount_ofNat_nonneg n, amount_ofNat_mono h⟩

theorem NotAbove.div_ofNat (h : NotAbove x y) {n : ℕ} (hn : 0 < n) : NotAbove (x / Float.ofNat n) (y / Float.ofNat n) := by
  obtain ⟨f, hop, hf, -⟩ := exists_roundsTo_div_ofNat hn
  exact h.map hop hf

theorem NotAbove.floor (h : NotAbove x y) (hy : (Placed.floor y : Except NotFinite Int) = .ok k) :
    ∃ j, (Placed.floor x : Except NotFinite Int) = .ok j ∧ 0 ≤ j ∧ j ≤ k := by
  obtain ⟨j, hj, hle⟩ := floor_mono h.le hy
  obtain ⟨v, hv, rfl⟩ := floor_eq_ok_iff.mp hj
  have hnonneg := h.nonneg
  rw [hv] at hnonneg
  exact ⟨_, hj, Int.floor_nonneg.mpr (WithTop.coe_nonneg.mp hnonneg), hle⟩

theorem NotAbove.roundHalfUp (h : NotAbove x y) (hy : roundHalfUp y = .ok k) :
    ∃ j, ReadingTime.roundHalfUp x = .ok j ∧ 0 ≤ j ∧ j ≤ k :=
  NotAbove.floor (h.map roundsTo_half_more fun _ _ _ hvw => by linarith) hy

/-- A double that is not negative and not above a number. -/
structure Within (x : Float) (b : ℚ) : Prop where
  nonneg : 0 ≤ amount x
  le : amount x ≤ b

/-- An operation that rounds the result of one that keeps the order, up to the next double. -/
theorem Within.map {a b : ℚ} (h : Within x a) {f : ℚ → ℚ} {op : Float → Float} (hop : RoundsTo 0 f op)
    (hf : ∀ v w, 0 ≤ v → v ≤ w → f v ≤ f w) (hb : IsDouble b) (hlt : b < 2 ^ (1024 : ℤ)) (hab : f a ≤ b) :
    Within (op x) b :=
  ⟨hop.nonneg h.nonneg, hop.le hf h.nonneg h.le hb hlt hab⟩

theorem within_ofNat {n : ℕ} {b : ℚ} (h : (n : ℚ) ≤ b) (hb : IsDouble b) (hlt : b < 2 ^ (1024 : ℤ)) :
    Within (Float.ofNat n) b := by
  obtain ⟨w, hw, hn⟩ := exists_amount_ofNat n
  have hle : w ≤ b := hw.mono hb.rounds h
  refine ⟨amount_ofNat_nonneg n, ?_⟩
  rw [hn, bounded, if_pos (hle.trans_lt hlt)]
  exact_mod_cast hle

theorem Within.floor {b : ℚ} (h : Within x b) :
    ∃ j, (Placed.floor x : Except NotFinite Int) = .ok j ∧ 0 ≤ j ∧ j ≤ ⌊b⌋ := by
  obtain ⟨v, hv, hle⟩ := WithTop.le_coe_iff.mp h.le
  have hnonneg := h.nonneg
  rw [hv] at hnonneg
  exact ⟨⌊v⌋, floor_eq_ok_iff.mpr ⟨v, hv, rfl⟩, Int.floor_nonneg.mpr (WithTop.coe_nonneg.mp hnonneg),
    Int.floor_mono hle⟩

end Steps

section Seconds

variable {x y : Float} {v w : ℚ}

theorem amount_floor (hx : amount x = v) (hv : 0 ≤ v) : amount ((⌊v⌋ : ℤ) : Float) = (⌊v⌋ : ℚ) := by
  have hdouble := (stands_unpack hx hv).isDouble.floor
  have hlt : (⌊v⌋ : ℚ) < 2 ^ (1024 : ℤ) := (Int.floor_le v).trans_lt (lt_bound_of_amount hx hv)
  obtain ⟨q, hq⟩ := Int.eq_ofNat_of_zero_le (Int.floor_nonneg.mpr hv)
  rw [hq] at hdouble hlt ⊢
  exact amount_ofNat_of_isDouble hdouble hlt

/-- The full minutes are taken off a time. -/
theorem roundsTo_behind (hx : amount x = v) (hv : 0 ≤ v) :
    RoundsTo ⌊v⌋ (· - (⌊v⌋ : ℚ)) (· - ((⌊v⌋ : ℤ) : Float)) :=
  roundsTo_sub (amount_floor hx hv) (Int.cast_nonneg (Int.floor_nonneg.mpr hv))

/-- Behind the full minutes there is less than a minute, which is rounded to sixty seconds at most. -/
theorem exists_seconds (hx : amount x = v) (hv : 0 ≤ v) :
    ∃ s, roundHalfUp ((x - ((⌊v⌋ : ℤ) : Float)) * 60.0) = .ok s ∧ 0 ≤ s ∧ s ≤ 60 := by
  have hlow : ((⌊v⌋ : ℚ) : WithTop ℚ) ≤ amount x := by
    rw [hx]
    exact_mod_cast Int.floor_le v
  have hlast : ((121 / 2 : ℚ)) = (121 : ℕ) * 2 ^ (-1 : ℤ) := by norm_num
  have hfraction : Within (x - ((⌊v⌋ : ℤ) : Float)) 1 :=
    ⟨(roundsTo_behind hx hv).nonneg hlow, (roundsTo_behind hx hv).le (fun _ _ _ h => sub_le_sub_right h _) hlow hx.le
      (isDouble_natCast (n := 1) (by decide)) (natCast_lt_bound (n := 1) (by decide))
      (by linarith [Int.lt_floor_add_one v])⟩
  have hsixty : Within ((x - ((⌊v⌋ : ℤ) : Float)) * 60.0) 60 :=
    hfraction.map roundsTo_sixtyfold (fun _ _ _ h => mul_le_mul_of_nonneg_right h (by norm_num))
      (isDouble_natCast (n := 60) (by decide)) (natCast_lt_bound (n := 60) (by decide)) (by norm_num)
  have hhalf : Within ((x - ((⌊v⌋ : ℤ) : Float)) * 60.0 + 0.5) (121 / 2) :=
    hsixty.map roundsTo_half_more (fun _ _ _ h => by linarith) ⟨121, -1, by decide, by decide, hlast⟩
      (lt_trans (by norm_num) (natCast_lt_bound (n := 61) (by decide))) (by norm_num)
  have hfloor : ⌊(121 / 2 : ℚ)⌋ = 60 := by norm_num
  rw [← hfloor]
  exact hhalf.floor

theorem notAbove_seconds (hx : amount x = v) (hy : amount y = w) (hv : 0 ≤ v) (hvw : v ≤ w) (hfloor : ⌊v⌋ = ⌊w⌋) :
    NotAbove ((x - ((⌊v⌋ : ℤ) : Float)) * 60.0) ((y - ((⌊w⌋ : ℤ) : Float)) * 60.0) := by
  have hlow : ((⌊v⌋ : ℚ) : WithTop ℚ) ≤ amount x := by
    rw [hx]
    exact_mod_cast Int.floor_le v
  have hxy : amount x ≤ amount y := by
    rw [hx, hy]
    exact_mod_cast hvw
  rw [← hfloor]
  apply NotAbove.sixtyfold
  exact ⟨(roundsTo_behind hx hv).nonneg hlow,
    (roundsTo_behind hx hv).mono (fun _ _ _ h => sub_le_sub_right h _) hlow hxy⟩

end Seconds

section Clocks

/-- The hundredths of a minute that a number of words takes, in doubles. -/
def roundedHundredths (words speed : ℤ) : Except NotFinite ℤ :=
  roundHalfUp (((words : Float) / (speed : Float)) * 100.0)

/-- The time that shows a number of hundredths of a minute, in doubles. -/
def roundedClock (h : ℤ) : Except NotFinite Clock := do
  let estimate : Float := (h : Float) / 100.0
  let minutes ← Placed.floor estimate
  let seconds ← roundHalfUp ((estimate - (minutes : Float)) * 60.0)
  return ⟨minutes, seconds⟩

theorem clock_float (words speed : ℤ) :
    clock Float words speed = roundedHundredths words speed >>= roundedClock := rfl

theorem roundedClock_eq_ok_iff {h : ℤ} {c : Clock} : roundedClock h = .ok c ↔
    ∃ v : ℚ, amount ((h : Float) / 100.0) = v ∧ c.minutes = ⌊v⌋ ∧
      roundHalfUp (((h : Float) / 100.0 - ((⌊v⌋ : ℤ) : Float)) * 60.0) = .ok c.seconds := by
  rw [roundedClock, bind_eq_ok_iff]
  constructor
  · rintro ⟨minutes, hminutes, hrest⟩
    obtain ⟨v, hv, rfl⟩ := floor_eq_ok_iff.mp hminutes
    obtain ⟨seconds, hseconds, hc⟩ := bind_eq_ok_iff.mp hrest
    obtain rfl := Except.ok.inj hc
    exact ⟨v, hv, rfl, hseconds⟩
  · rintro ⟨v, hv, hminutes, hseconds⟩
    refine ⟨⌊v⌋, floor_eq_ok_iff.mpr ⟨v, hv, rfl⟩, bind_eq_ok_iff.mpr ⟨c.seconds, hseconds, ?_⟩⟩
    rw [← hminutes]
    rfl

/-- More hundredths of a minute do not show an earlier time. -/
theorem roundedClock_mono {h k : ℕ} (hk : h ≤ k) {d : Clock} (hd : roundedClock k = .ok d) :
    ∃ c, roundedClock h = .ok c ∧ c.inSeconds ≤ d.inSeconds := by
  obtain ⟨w, hw, hminutes, hseconds⟩ := roundedClock_eq_ok_iff.mp hd
  have hminute : NotAbove (Float.ofNat h / 100.0) (Float.ofNat k / 100.0) := (notAbove_ofNat hk).hundredth
  obtain ⟨hnonneg, hle⟩ := hminute
  have hw' : amount (Float.ofNat k / 100.0) = w := hw
  rw [hw'] at hle
  obtain ⟨v, hv, hvw⟩ := WithTop.le_coe_iff.mp hle
  rw [hv] at hnonneg
  have hv0 : 0 ≤ v := WithTop.coe_nonneg.mp hnonneg
  obtain ⟨s, hs, hs0, hs60⟩ := exists_seconds hv hv0
  refine ⟨⟨⌊v⌋, s⟩, roundedClock_eq_ok_iff.mpr ⟨v, hv, rfl, hs⟩, ?_⟩
  rw [Clock.inSeconds, Clock.inSeconds, hminutes]
  rcases (Int.floor_mono hvw).lt_or_eq with hlt | heq
  · obtain ⟨t, ht, ht0, -⟩ := exists_seconds hw' (hv0.trans hvw)
    obtain rfl : t = d.seconds := Except.ok.inj (ht.symm.trans hseconds)
    simp only
    omega
  · obtain ⟨j, hj, -, hle'⟩ := (notAbove_seconds hv hw' hv0 hvw heq).roundHalfUp hseconds
    obtain rfl : j = s := Except.ok.inj (hj.symm.trans hs)
    simp only [heq]
    omega

theorem clock_float_mono {words more : ℕ} {speed : ℤ} (hspeed : 1 ≤ speed) (hmore : words ≤ more) {d : Clock}
    (hd : clock Float more speed = .ok d) : ∃ c, clock Float words speed = .ok c ∧ c.inSeconds ≤ d.inSeconds := by
  obtain ⟨n, rfl⟩ := Int.eq_ofNat_of_zero_le (zero_le_one.trans hspeed)
  have hn : 0 < n := by omega
  rw [clock_float] at hd ⊢
  obtain ⟨k, hk, hclock⟩ := bind_eq_ok_iff.mp hd
  obtain ⟨j, hj, hj0, hjk⟩ := ((notAbove_ofNat hmore).div_ofNat hn).hundredfold.roundHalfUp hk
  obtain ⟨j, rfl⟩ := Int.eq_ofNat_of_zero_le hj0
  obtain ⟨k, rfl⟩ := Int.eq_ofNat_of_zero_le (hj0.trans hjk)
  obtain ⟨c, hc, hle⟩ := roundedClock_mono (Int.ofNat_le.mp hjk) hclock
  exact ⟨c, bind_eq_ok_iff.mpr ⟨_, hj, hc⟩, hle⟩

theorem exists_roundedClock {h : ℕ} (hh : (h : ℚ) ≤ 2 ^ (72 : ℤ)) : ∃ c, roundedClock h = .ok c := by
  have hbound : (2 : ℚ) ^ (72 : ℤ) < 2 ^ (1024 : ℤ) := zpow_lt_zpow_right₀ one_lt_two (by decide)
  have hdouble : IsDouble (2 ^ (72 : ℤ)) := isDouble_two_zpow (by decide)
  have hestimate : Within (Float.ofNat h / 100.0) (2 ^ (72 : ℤ)) :=
    (within_ofNat hh hdouble hbound).map roundsTo_hundredth (fun _ _ _ hvw => div_le_div_of_nonneg_right hvw (by norm_num))
      hdouble hbound (by norm_num)
  obtain ⟨v, hv, -⟩ := WithTop.le_coe_iff.mp hestimate.le
  have hnonneg := hestimate.nonneg
  rw [hv] at hnonneg
  obtain ⟨s, hs, -⟩ := exists_seconds hv (WithTop.coe_nonneg.mp hnonneg)
  exact ⟨⟨⌊v⌋, s⟩, roundedClock_eq_ok_iff.mpr ⟨v, hv, rfl, hs⟩⟩

theorem exists_clock_float {words : ℕ} (hwords : words < 2 ^ 64) {speed : ℤ} (hspeed : 1 ≤ speed) :
    ∃ c, clock Float words speed = .ok c := by
  obtain ⟨n, rfl⟩ := Int.eq_ofNat_of_zero_le (zero_le_one.trans hspeed)
  obtain ⟨f, hop, hf, hself⟩ := exists_roundsTo_div_ofNat (n := n) (by omega)
  have hbound : ∀ k : ℤ, k ≤ 72 → (2 : ℚ) ^ k < 2 ^ (1024 : ℤ) := fun k hk =>
    zpow_lt_zpow_right₀ one_lt_two (hk.trans_lt (by decide))
  have hdouble : ∀ k : ℤ, 0 ≤ k → IsDouble (2 ^ k) := fun k hk => isDouble_two_zpow (by omega)
  have hcast : (words : ℚ) ≤ 2 ^ (64 : ℤ) := by exact_mod_cast hwords.le
  have hminutes : Within (Float.ofNat words / Float.ofNat n) (2 ^ (64 : ℤ)) :=
    (within_ofNat hcast (hdouble 64 (by decide)) (hbound 64 (by decide))).map hop hf (hdouble 64 (by decide))
      (hbound 64 (by decide)) (hself _ (two_zpow_pos _).le)
  have hhundredths : Within (Float.ofNat words / Float.ofNat n * 100.0) (2 ^ (71 : ℤ)) :=
    hminutes.map roundsTo_hundredfold (fun _ _ _ hvw => mul_le_mul_of_nonneg_right hvw (by norm_num))
      (hdouble 71 (by decide)) (hbound 71 (by decide)) (by norm_num)
  have hrounded : Within (Float.ofNat words / Float.ofNat n * 100.0 + 0.5) (2 ^ (72 : ℤ)) :=
    hhundredths.map roundsTo_half_more (fun _ _ _ hvw => by linarith) (hdouble 72 (by decide)) (hbound 72 (by decide))
      (by norm_num)
  obtain ⟨j, hj, hj0, hle⟩ := hrounded.floor
  obtain ⟨h, rfl⟩ := Int.eq_ofNat_of_zero_le hj0
  have hh : (h : ℚ) ≤ 2 ^ (72 : ℤ) := by exact_mod_cast Int.le_floor.mp hle
  obtain ⟨c, hc⟩ := exists_roundedClock hh
  exact ⟨c, (clock_float _ _).trans (bind_eq_ok_iff.mpr ⟨_, hj, hc⟩)⟩

end Clocks

end CommentGrade.ReadingTime
