import CommentGrade.Grade
import CommentGrade.Proofs.Number.Order

/-!
# Ordinals of grades

The ordinal of a grade is the English one up to 20. Above that the last digit decides, so the ordinals that end in eleven,
twelve or thirteen get the ending of one, two or three. A grade that is not above zero ends in `th`. No two grades have
the same ordinal, and a number has the ordinal of its integer part.
-/
namespace CommentGrade

open Number

namespace Grade

/-- The ending that a last digit has. -/
def digitEnding (digit : ℕ) : String :=
  if digit = 1 then "st" else if digit = 2 then "nd" else if digit = 3 then "rd" else "th"

/-- Whether the last two digits of a number are eleven, twelve or thirteen. -/
def EndsInElevenToThirteen (n : ℕ) : Prop := n % 100 = 11 ∨ n % 100 = 12 ∨ n % 100 = 13

instance (n : ℕ) : Decidable (EndsInElevenToThirteen n) := inferInstanceAs (Decidable (_ ∨ _ ∨ _))

/-- The ending of an English ordinal. -/
def ordinalEnding (n : ℕ) : String := if EndsInElevenToThirteen n then "th" else digitEnding (n % 10)

section Endings

variable {n : ℕ}

theorem suffix_of_le (h : n ≤ 20) : suffix n = digitEnding n := by
  have hn : ¬(20 : ℤ) < n := by omega
  simp only [suffix, hn, if_false, digitEnding]
  norm_cast

theorem suffix_of_lt (h : 20 < n) : suffix n = digitEnding (n % 10) := by
  have hn : (20 : ℤ) < n := by omega
  have hdigit : (n : ℤ).fmod 10 = (n % 10 : ℕ) := by
    rw [Int.fmod_eq_emod_of_nonneg _ (by decide)]
    omega
  simp only [suffix, hn, if_true, hdigit, digitEnding]
  norm_cast

/-- Up to 20 the teens have an ending of their own, as they are no digits. -/
theorem ordinalEnding_of_le : ∀ n ≤ 20, ordinalEnding n = digitEnding n := by
  decide

theorem suffix_eq_ordinalEnding (h : ¬(20 < n ∧ EndsInElevenToThirteen n)) : suffix n = ordinalEnding n := by
  rcases Nat.lt_or_ge 20 n with hlt | hle
  · rw [suffix_of_lt hlt, ordinalEnding, if_neg fun hlastTwo => h ⟨hlt, hlastTwo⟩]
  · rw [suffix_of_le hle, ordinalEnding_of_le n hle]

/-- Above 20 the last digit of the last two is the one that counts. -/
theorem suffix_of_lastTwo {lastTwo : ℕ} (h : 20 < n) (hn : n % 100 = lastTwo) :
    suffix n = digitEnding (lastTwo % 10) := by
  have hlast : n % 10 = lastTwo % 10 := by omega
  rw [suffix_of_lt h, hlast]

theorem suffix_of_nonpos {g : ℤ} (h : g ≤ 0) : suffix g = "th" := by
  unfold suffix
  dsimp only
  split_ifs <;> first | rfl | omega

theorem length_suffix (grade : Int) : (suffix grade).toList.length = 2 := by
  unfold suffix
  dsimp only
  split_ifs <;> rfl

theorem label_injective : Function.Injective label := by
  intro a b h
  have hchars : (toString a).toList ++ (suffix a).toList = (toString b).toList ++ (suffix b).toList := by
    rw [← String.toList_append, ← String.toList_append]
    exact congrArg String.toList h
  obtain ⟨hnumber, -⟩ := List.append_inj' hchars (by rw [length_suffix, length_suffix])
  exact Int.repr_inj.mp (String.toList_injective hnumber)

end Endings

theorem ordinalOf_float {x : Float} {v : ℚ} (hx : amount x = v) :
    suffixOf x = .ok (suffix ⌊v⌋) ∧ labelOf x = .ok (label ⌊v⌋) := by
  have hfloor : (Placed.floor x : Except NotFinite Int) = .ok ⌊v⌋ := floor_eq_ok_iff.mpr ⟨v, hx, rfl⟩
  rw [suffixOf, labelOf, hfloor]
  exact ⟨rfl, rfl⟩

/-- The ending of a grade is the one of the English ordinal, but for the grades above 20 whose last two digits are eleven,
twelve or thirteen; these have the ending of one, two or three. Grades that are not above zero end in `th`, no two grades
have the same ordinal, and a number, be it a fraction or a finite double, has the ending and the ordinal of its integer
part. -/
theorem suffix_ordinal :
    (∀ n : ℕ, ¬(20 < n ∧ EndsInElevenToThirteen n) → suffix n = ordinalEnding n) ∧
    (∀ n : ℕ, 20 < n → (n % 100 = 11 → suffix n = "st") ∧ (n % 100 = 12 → suffix n = "nd") ∧
      (n % 100 = 13 → suffix n = "rd")) ∧
    (∀ g : ℤ, g ≤ 0 → suffix g = "th") ∧
    Function.Injective label ∧
    (∀ x : Float, x.isFinite = true →
      ∃ v : ℚ, amount x = v ∧ suffixOf x = .ok (suffix ⌊v⌋) ∧ labelOf x = .ok (label ⌊v⌋)) ∧
    (∀ x : ℚ, suffixOf x = .ok (suffix ⌊x⌋) ∧ labelOf x = .ok (label ⌊x⌋)) := by
  refine ⟨fun n => suffix_eq_ordinalEnding, fun n hn => ?_, fun g => suffix_of_nonpos, label_injective, fun x hx => ?_,
    fun x => ⟨rfl, rfl⟩⟩
  · exact ⟨suffix_of_lastTwo hn, suffix_of_lastTwo hn, suffix_of_lastTwo hn⟩
  · obtain ⟨v, hv⟩ := exists_amount_of_isFinite hx
    exact ⟨v, hv, ordinalOf_float hv⟩

/-- Twelve and a hundred and twelve, a grade below zero, and a double between 21 and 22. -/
theorem suffix_ordinal_twelve :
    ¬(20 < 12 ∧ EndsInElevenToThirteen 12) ∧ suffix (12 : ℕ) = "th" ∧
      20 < 112 ∧ 112 % 100 = 12 ∧ suffix (112 : ℕ) = "nd" ∧ ordinalEnding 112 = "th" ∧
      (-1 : ℤ) ≤ 0 ∧ suffix (-1) = "th" ∧
      (21.5 : Float).isFinite = true ∧ suffixOf (21.5 : Float) = .ok "st" ∧
      ∃ v : ℚ, amount 21.5 = v ∧ labelOf (21.5 : Float) = .ok (label ⌊v⌋) := by
  have htwelve : ¬(20 < 12 ∧ EndsInElevenToThirteen 12) := by decide
  have hfinite : (21.5 : Float).isFinite = true := by decide +kernel
  obtain ⟨hordinal, hlastTwo, hnonpos, -, hfloat, -⟩ := suffix_ordinal
  obtain ⟨-, hsecond, -⟩ := hlastTwo 112 (by decide)
  obtain ⟨v, hv, -, hlabel⟩ := hfloat 21.5 hfinite
  exact ⟨htwelve, hordinal 12 htwelve, by decide, by decide, hsecond (by decide), by decide, by decide,
    hnonpos (-1) (by decide), hfinite, by decide +kernel, v, hv, hlabel⟩

end Grade

end CommentGrade
