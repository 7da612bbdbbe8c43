import CommentGrade.ReadingTime
import Mathlib.Algebra.Order.Archimedean.Basic
import Mathlib.Data.Rat.Floor
import Mathlib.Tactic.FieldSimp
import Mathlib.Tactic.Linarith
import Mathlib.Tactic.NormNum

/-!
# Reading times in exact numbers

A reading time is rounded twice, to hundredths of a minute and to seconds. Both roundings together are one rounding of
six tenths of the hundredths: the minutes are whole seconds, so it makes no difference whether they are taken off before.
Hence a time never shows sixty seconds, it is at most three tenths and four tenths of a second away from the exact one,
and it follows the number of words and the speed.
-/
namespace CommentGrade.ReadingTime

open Number

/-- The seconds that a time has with its minutes. -/
def Clock.inSeconds (c : Clock) : Int := 60 * c.minutes + c.seconds

theorem roundHalfUp_rat (x : ℚ) : roundHalfUp x = .ok ⌊x + 1 / 2⌋ := by
  have hhalf : (0.5 : ℚ) = 1 / 2 := by norm_num
  rw [roundHalfUp, hhalf]
  rfl

/-- The hundredths of a minute that a number of words takes. -/
def hundredths (words : ℕ) (speed : ℤ) : ℤ := ⌊(words : ℚ) / speed * 100 + 1 / 2⌋

/-- The time that shows a number of hundredths of a minute. -/
def clockOf (h : ℤ) : Clock := ⟨h / 100, (6 * (h % 100) + 5) / 10⟩

section Hundredths

variable (h : ℤ)

theorem floor_hundredths : ⌊(h : ℚ) / 100⌋ = h / 100 := by
  exact_mod_cast Rat.floor_intCast_div_natCast h 100

theorem floor_seconds : ⌊((h : ℚ) / 100 - (h / 100 : ℤ)) * 60 + 1 / 2⌋ = (6 * (h % 100) + 5) / 10 := by
  have hsplit : (h : ℚ) = 100 * (h / 100 : ℤ) + (h % 100 : ℤ) := by
    exact_mod_cast (Int.mul_ediv_add_emod h 100).symm
  have hseconds : ((h : ℚ) / 100 - (h / 100 : ℤ)) * 60 + 1 / 2 = ((6 * (h % 100) + 5 : ℤ) : ℚ) / (10 : ℕ) := by
    push_cast
    linarith
  rw [hseconds, Rat.floor_intCast_div_natCast]
  rfl

/-- To round the seconds behind the minutes is to round all seconds. -/
theorem inSeconds_clockOf : (clockOf h).inSeconds = (6 * h + 5) / 10 := by
  simp only [Clock.inSeconds, clockOf]
  omega

theorem seconds_clockOf : 0 ≤ (clockOf h).seconds ∧ (clockOf h).seconds ≤ 59 := by
  simp only [clockOf]
  omega

/-- Six tenths are never a half, so the second rounding changes a time by four tenths of a second at most. -/
theorem inSeconds_clockOf_near : |((clockOf h).inSeconds : ℚ) - 6 / 10 * h| ≤ 4 / 10 := by
  have hlow : 10 * (clockOf h).inSeconds ≤ 6 * h + 4 := by
    rw [inSeconds_clockOf]
    omega
  have hhigh : 6 * h ≤ 10 * (clockOf h).inSeconds + 4 := by
    rw [inSeconds_clockOf]
    omega
  have hlow' : (10 : ℚ) * (clockOf h).inSeconds ≤ 6 * h + 4 := by exact_mod_cast hlow
  have hhigh' : (6 : ℚ) * h ≤ 10 * (clockOf h).inSeconds + 4 := by exact_mod_cast hhigh
  rw [abs_le]
  constructor <;> linarith

end Hundredths

theorem clock_rat (words : ℕ) (speed : ℤ) : clock ℚ words speed = .ok (clockOf (hundredths words speed)) := by
  have hscale : (100.0 : ℚ) = 100 := by norm_num
  have hminute : (60.0 : ℚ) = 60 := by norm_num
  have hfloor : ∀ x : ℚ, (Placed.floor x : Except NotFinite Int) = .ok ⌊x⌋ := fun _ => rfl
  have hsteps : clock ℚ words speed = .ok ⟨⌊(hundredths words speed : ℚ) / 100⌋,
      ⌊((hundredths words speed : ℚ) / 100 - ⌊(hundredths words speed : ℚ) / 100⌋) * 60 + 1 / 2⌋⟩ := by
    simp only [clock, roundHalfUp_rat, hfloor, hscale, hminute, Int.cast_natCast]
    rfl
  rw [hsteps, floor_hundredths, floor_seconds]
  rfl

section Times

variable {words : ℕ} {speed : ℤ}

theorem hundredths_nonneg (hspeed : 1 ≤ speed) : 0 ≤ hundredths words speed := by
  have hpos : (0 : ℚ) < speed := by exact_mod_cast hspeed
  rw [hundredths, Int.floor_nonneg]
  positivity

/-- The first rounding changes a time by three tenths of a second at most. -/
theorem hundredths_near (words : ℕ) (speed : ℤ) :
    |6 / 10 * (hundredths words speed : ℚ) - 60 * words / speed| ≤ 3 / 10 := by
  have hle := Int.floor_le ((words : ℚ) / speed * 100 + 1 / 2)
  have hlt := Int.lt_floor_add_one ((words : ℚ) / speed * 100 + 1 / 2)
  have hseconds : 60 * (words : ℚ) / speed = 60 * (words / speed) := mul_div_assoc _ _ _
  rw [hundredths, hseconds, abs_le]
  constructor <;> linarith

theorem hundredths_mono {more : ℕ} (hspeed : 1 ≤ speed) (hmore : words ≤ more) :
    hundredths words speed ≤ hundredths more speed := by
  have hpos : (0 : ℚ) < speed := by exact_mod_cast hspeed
  have hwords : (words : ℚ) ≤ more := by exact_mod_cast hmore
  apply Int.floor_mono
  gcongr

theorem hundredths_anti {faster : ℤ} (hspeed : 1 ≤ speed) (hfaster : speed ≤ faster) :
    hundredths words faster ≤ hundredths words speed := by
  have hpos : (0 : ℚ) < speed := by exact_mod_cast hspeed
  have hle : (speed : ℚ) ≤ faster := by exact_mod_cast hfaster
  apply Int.floor_mono
  gcongr

theorem inSeconds_clockOf_mono {h k : ℤ} (hk : h ≤ k) : (clockOf h).inSeconds ≤ (clockOf k).inSeconds := by
  rw [inSeconds_clockOf, inSeconds_clockOf]
  omega

end Times

/-- A reading time in exact numbers can be shown on a clock, it is at most seven tenths of a second away from the exact
one, more words do not take less time, and a higher speed does not take more. -/
theorem clock_accurate (words : ℕ) {speed : ℤ} (hspeed : 1 ≤ speed) :
    ∃ c, clock ℚ words speed = .ok c ∧ 0 ≤ c.minutes ∧ 0 ≤ c.seconds ∧ c.seconds ≤ 59 ∧
      |(c.inSeconds : ℚ) - 60 * words / speed| ≤ 7 / 10 ∧
      (∀ more d, words ≤ more → clock ℚ more speed = .ok d → c.inSeconds ≤ d.inSeconds) ∧
      ∀ faster d, speed ≤ faster → clock ℚ words faster = .ok d → d.inSeconds ≤ c.inSeconds := by
  have hminutes : 0 ≤ (clockOf (hundredths words speed)).minutes :=
    Int.ediv_nonneg (hundredths_nonneg hspeed) (by decide)
  obtain ⟨hseconds, hsixty⟩ := seconds_clockOf (hundredths words speed)
  have hnear : |((clockOf (hundredths words speed)).inSeconds : ℚ) - 60 * words / speed| ≤ 7 / 10 := by
    have hsum := abs_sub_le ((clockOf (hundredths words speed)).inSeconds : ℚ)
      (6 / 10 * hundredths words speed) (60 * words / speed)
    have hfirst := hundredths_near words speed
    have hsecond := inSeconds_clockOf_near (hundredths words speed)
    linarith
  refine ⟨_, clock_rat words speed, hminutes, hseconds, hsixty, hnear, ?_, ?_⟩
  · intro more d hmore hd
    rw [clock_rat] at hd
    obtain rfl := Except.ok.inj hd
    exact inSeconds_clockOf_mono (hundredths_mono hspeed hmore)
  · intro faster d hfaster hd
    rw [clock_rat] at hd
    obtain rfl := Except.ok.inj hd
    exact inSeconds_clockOf_mono (hundredths_anti hspeed hfaster)

/-- One word at 200 words a minute takes three tenths of a second. It shows as a second, so the bound is reached. -/
theorem clock_accurate_word : (1 : ℤ) ≤ 200 ∧ ∃ c, clock ℚ (1 : ℕ) 200 = .ok c ∧ 0 ≤ c.minutes ∧ 0 ≤ c.seconds ∧
    c.seconds ≤ 59 ∧ |(c.inSeconds : ℚ) - 60 * (1 : ℕ) / (200 : ℤ)| ≤ 7 / 10 ∧ c.inSeconds = 1 := by
  have hspeed : (1 : ℤ) ≤ 200 := by decide
  obtain ⟨c, hc, hminutes, hseconds, hsixty, hnear, -, -⟩ := clock_accurate 1 hspeed
  refine ⟨hspeed, c, hc, hminutes, hseconds, hsixty, hnear, ?_⟩
  have hone : hundredths 1 200 = 1 := by
    rw [hundredths, Int.floor_eq_iff]
    norm_num
  rw [clock_rat, hone] at hc
  obtain rfl := Except.ok.inj hc
  rfl

end CommentGrade.ReadingTime
