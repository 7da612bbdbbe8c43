import CommentGrade.Json.Reader
import CommentGrade.Json.Writer
import Mathlib.Algebra.Group.Nat.Defs
import Mathlib.Tactic.SplitIfs

/-!
# Numbers that are read back

The text of an integer is a row of digits, with a minus in front. The text of a float has a fraction or an exponent behind
such a row, or is one of three names. In a document it ends where the row ends, so that nothing of what follows is taken
for a part of it.
-/
namespace CommentGrade.Json

open Number

variable {cs ds rest whole : List Char} {c : Char} {negative : Bool}

/-- A row of digits. -/
def AreDigits (ds : List Char) : Prop := ds ≠ [] ∧ ∀ c ∈ ds, c.isDigit = true

/-- A row of digits whose first one is a zero only if it is the only one. -/
def IsWhole (ds : List Char) : Prop := AreDigits ds ∧ (ds = ['0'] ∨ ds.head? ≠ some '0')

/-- A fraction as it is written, or nothing. -/
def IsFraction (cs : List Char) : Prop := cs = [] ∨ ∃ ds, cs = '.' :: ds ∧ AreDigits ds

/-- An exponent as it is written, or nothing. -/
def IsPower (cs : List Char) : Prop := cs = [] ∨ ∃ s ds, cs = 'e' :: s :: ds ∧ (s = '+' ∨ s = '-') ∧ AreDigits ds

/-- The text of a positive number that has a fraction or an exponent. -/
def IsFloatText (cs : List Char) : Prop :=
  ∃ whole places power, cs = whole ++ (places ++ power) ∧ IsWhole whole ∧ IsFraction places ∧ IsPower power ∧
    ¬(places = [] ∧ power = [])

/-- What follows a number: it does not start with a digit, a point or the mark of an exponent. -/
def Closes (rest : List Char) : Prop := ∀ c ∈ rest.head?, c.isDigit = false ∧ c ≠ '.' ∧ c ≠ 'e' ∧ c ≠ 'E'

section Digits

theorem areDigits_toDigits (n : Nat) : AreDigits (Nat.toDigits 10 n) :=
  ⟨Nat.toDigits_ne_nil, fun _ hc => Nat.isDigit_of_mem_toDigits (by decide) (by decide) hc⟩

theorem areDigits_replicate_append {n : Nat} (h : AreDigits ds) : AreDigits (List.replicate n '0' ++ ds) := by
  refine ⟨List.append_ne_nil_of_right_ne_nil _ h.1, fun c hc => ?_⟩
  rcases List.mem_append.mp hc with hc | hc
  · rw [List.eq_of_mem_replicate hc]
    rfl
  · exact h.2 c hc

theorem isWhole_toDigits (n : Nat) : IsWhole (Nat.toDigits 10 n) := by
  refine ⟨areDigits_toDigits n, ?_⟩
  rcases Nat.eq_zero_or_pos n with rfl | hpos
  · exact .inl (Nat.toDigits_zero 10)
  · right
    induction n using Nat.strongRecOn with
    | ind n ih =>
      rw [Nat.toDigits_eq_if (by decide)]
      split_ifs with hlt
      · simpa using Nat.ne_of_gt hpos
      · obtain ⟨d, ds, hds⟩ := List.exists_cons_of_ne_nil (Nat.toDigits_ne_nil (n := n / 10) (b := 10))
        have hhead := ih (n / 10) (by omega) (by omega)
        rw [hds] at hhead ⊢
        exact hhead

theorem digitOf?_digitChar {d : Nat} (h : d < 10) : digitOf? d.digitChar = some d := by
  have hdigit : d.digitChar.isDigit = true := by simpa using h
  rw [digitOf?, if_pos hdigit, Nat.toNat_digitChar_sub_48_of_lt_ten h]

theorem valueOf_append_digitChar (cs : List Char) {d : Nat} (h : d < 10) :
    valueOf 10 (cs ++ [d.digitChar]) = valueOf 10 cs * 10 + d := by
  rw [valueOf, List.foldl_append, List.foldl_cons, List.foldl_nil, digitOf?_digitChar h]
  rfl

theorem valueOf_toDigits (n : Nat) : valueOf 10 (Nat.toDigits 10 n) = n := by
  induction n using Nat.strongRecOn with
  | ind n ih =>
    rw [Nat.toDigits_eq_if (by decide)]
    split_ifs with hlt
    · rw [← List.nil_append [_], valueOf_append_digitChar _ hlt]
      simp [valueOf]
    · rw [valueOf_append_digitChar _ (Nat.mod_lt n (by decide)), ih (n / 10) (by omega)]
      omega

theorem AreDigits.takeWhile_append (h : AreDigits ds) (hrest : ∀ c ∈ rest.head?, c.isDigit = false) :
    (ds ++ rest).takeWhile Char.isDigit = ds := by
  have hnone : rest.takeWhile Char.isDigit = [] := by
    cases rest with
    | nil => rfl
    | cons c rest => simp [hrest c rfl]
  rw [List.takeWhile_append_of_pos h.2, hnone, List.append_nil]

theorem AreDigits.dropWhile_append (h : AreDigits ds) (hrest : ∀ c ∈ rest.head?, c.isDigit = false) :
    (ds ++ rest).dropWhile Char.isDigit = rest := by
  have hall : rest.dropWhile Char.isDigit = rest := by
    cases rest with
    | nil => rfl
    | cons c rest => simp [hrest c rfl]
  rw [List.dropWhile_append_of_pos h.2, hall]

end Digits

section Parts

theorem fraction_of_closes (h : ∀ c ∈ rest.head?, c ≠ '.') : fraction rest = ([], rest) := by
  unfold fraction
  split
  · exact absurd rfl (h '.' rfl)
  · rfl

theorem IsFraction.exists_fraction (h : IsFraction cs) : ∃ places, (places = [] ↔ cs = []) ∧
    ∀ rest : List Char, (∀ c ∈ rest.head?, c.isDigit = false ∧ c ≠ '.') → fraction (cs ++ rest) = (places, rest) := by
  rcases h with rfl | ⟨ds, rfl, hds⟩
  · exact ⟨[], Iff.rfl, fun rest hrest => fraction_of_closes fun c hc => (hrest c hc).2⟩
  · refine ⟨ds, iff_of_false hds.1 (List.cons_ne_nil _ _), fun rest hrest => ?_⟩
    have hspan (c : Char) (hc : c ∈ rest.head?) : c.isDigit = false := (hrest c hc).1
    obtain ⟨d, ds, rfl⟩ := List.exists_cons_of_ne_nil hds.1
    rw [List.cons_append, List.cons_append, fraction, if_pos (hds.2 d List.mem_cons_self), ← List.cons_append,
      hds.takeWhile_append hspan, hds.dropWhile_append hspan]

theorem exponent?_of_closes (h : ∀ c ∈ rest.head?, c ≠ 'e' ∧ c ≠ 'E') : exponent? rest = (none, rest) := by
  cases rest with
  | nil => rfl
  | cons c rest =>
    obtain ⟨he, hE⟩ := h c rfl
    simp [exponent?, he, hE]

theorem IsPower.exists_exponent? (h : IsPower cs) : ∃ power, (power = none ↔ cs = []) ∧
    ∀ rest, Closes rest → exponent? (cs ++ rest) = (power, rest) := by
  rcases h with rfl | ⟨s, ds, rfl, hs, hds⟩
  · exact ⟨none, iff_of_true rfl rfl, fun rest hrest => exponent?_of_closes fun c hc => (hrest c hc).2.2⟩
  · refine ⟨some (signed (s == '-') (valueOf 10 ds)), iff_of_false nofun (List.cons_ne_nil _ _), fun rest hrest => ?_⟩
    have hspan (c : Char) (hc : c ∈ rest.head?) : c.isDigit = false := (hrest c hc).1
    have hsome : ds.isEmpty = false := by simpa using hds.1
    rcases hs with rfl | rfl
    · simp [exponent?, hds.takeWhile_append hspan, hds.dropWhile_append hspan, hsome]
    · simp [exponent?, hds.takeWhile_append hspan, hds.dropWhile_append hspan, hsome]

theorem IsWhole.wholePart_eq (h : IsWhole whole) (hrest : ∀ c ∈ rest.head?, c.isDigit = false) :
    wholePart (whole ++ rest) = (whole, rest) := by
  obtain ⟨hdigits, rfl | hhead⟩ := h
  · rfl
  · unfold wholePart
    split
    · next tail heq =>
      obtain ⟨d, ds, rfl⟩ := List.exists_cons_of_ne_nil hdigits.1
      exact absurd (congrArg List.head? heq) hhead
    · rw [hdigits.takeWhile_append hrest, hdigits.dropWhile_append hrest]

end Parts

section Numbers

/-- An integer that is not too long is read up to what follows it. -/
theorem readNumber_of_isWhole (h : IsWhole whole) (hlength : whole.length ≤ maxDigits) (hrest : Closes rest) :
    readNumber negative (whole ++ rest) = .ok (.int (signed negative (valueOf 10 whole)), rest) := by
  have hempty : whole.isEmpty = false := by simpa using h.1.1
  rw [readNumber, h.wholePart_eq fun c hc => (hrest c hc).1]
  simp [hempty, fraction_of_closes fun c hc => (hrest c hc).2.1, exponent?_of_closes fun c hc => (hrest c hc).2.2,
    decimalValue, Nat.not_lt.mpr hlength]

/-- A number with a fraction or an exponent is read as a float, whatever follows it. -/
theorem IsFloatText.exists_readNumber (h : IsFloatText cs) (negative : Bool) :
    ∃ x, ∀ rest, Closes rest → readNumber negative (cs ++ rest) = .ok (.float x, rest) := by
  obtain ⟨whole, fractionText, powerText, rfl, hwhole, hfraction, hpower, hsome⟩ := h
  obtain ⟨places, hplaces, hreadFraction⟩ := hfraction.exists_fraction
  obtain ⟨power, hpowerNone, hreadPower⟩ := hpower.exists_exponent?
  let size : Int := power.getD 0 - places.length
  refine ⟨signedFloat negative (nearestFloat (valueOf 10 (whole ++ places)) size), fun rest hrest => ?_⟩
  have hbehind : ∀ c ∈ (powerText ++ rest).head?, c.isDigit = false ∧ c ≠ '.' := by
    rcases hpower with rfl | ⟨s, ds, rfl, -⟩
    · exact fun c hc => ⟨(hrest c hc).1, (hrest c hc).2.1⟩
    · rintro c ⟨⟩
      decide
  have hafter : ∀ c ∈ (fractionText ++ (powerText ++ rest)).head?, c.isDigit = false := by
    rcases hfraction with rfl | ⟨ds, rfl, -⟩
    · exact fun c hc => (hbehind c hc).1
    · rintro c ⟨⟩
      rfl
  have hempty : whole.isEmpty = false := by simpa using hwhole.1.1
  have hfloat : (places.isEmpty && power.isNone) = false := by
    rw [Bool.and_eq_false_iff, List.isEmpty_eq_false_iff, Option.isNone_eq_false_iff, Option.isSome_iff_ne_none]
    rw [← hplaces, ← hpowerNone] at hsome
    exact Classical.not_and_iff_not_or_not.mp hsome
  rw [readNumber, List.append_assoc, List.append_assoc, hwhole.wholePart_eq hafter]
  simp only [hempty, hreadFraction _ hbehind, hreadPower _ hrest, hfloat]
  rfl

end Numbers

section Layouts

theorem isWhole_zero : IsWhole ['0'] := isWhole_toDigits 0

theorem IsWhole.take (h : IsWhole ds) {n : Nat} (hn : 0 < n) : IsWhole (ds.take n) := by
  obtain ⟨⟨hne, hdigits⟩, hhead⟩ := h
  obtain ⟨d, ds, rfl⟩ := List.exists_cons_of_ne_nil hne
  obtain ⟨k, rfl⟩ := Nat.exists_eq_succ_of_ne_zero (Nat.ne_of_gt hn)
  rw [List.take_succ_cons]
  refine ⟨⟨List.cons_ne_nil _ _, fun c hc => hdigits c ?_⟩, ?_⟩
  · exact (List.cons_sublist_cons.mpr (List.take_sublist k ds)).mem hc
  · rcases hhead with hzero | hhead
    · obtain ⟨rfl, rfl⟩ := List.cons.inj hzero
      exact .inl (by simp)
    · exact .inr hhead

theorem IsWhole.append_zeros (h : IsWhole ds) {n : Nat} (hn : ds = ['0'] → n = 0) :
    IsWhole (ds ++ List.replicate n '0') := by
  obtain ⟨⟨hne, hdigits⟩, hhead⟩ := h
  obtain ⟨d, ds, rfl⟩ := List.exists_cons_of_ne_nil hne
  refine ⟨⟨List.cons_ne_nil _ _, fun c hc => ?_⟩, ?_⟩
  · rcases List.mem_append.mp hc with hc | hc
    · exact hdigits c hc
    · rw [List.eq_of_mem_replicate hc]
      rfl
  · rcases hhead with hzero | hhead
    · rw [hn hzero, List.replicate_zero, List.append_nil]
      exact .inl hzero
    · exact .inr hhead

theorem AreDigits.drop (h : AreDigits ds) {n : Nat} (hn : n < ds.length) : AreDigits (ds.drop n) :=
  ⟨by simpa using hn, fun c hc => h.2 c (List.mem_of_mem_drop hc)⟩

theorem isFloatText_scientific (hds : IsWhole ds) {s : Char} {power : List Char} (hs : s = '+' ∨ s = '-')
    (hpower : AreDigits power) :
    IsFloatText ((if ds.length == 1 then ds else ds.take 1 ++ '.' :: ds.drop 1) ++ 'e' :: s :: power) := by
  have hexponent : IsPower ('e' :: s :: power) := .inr ⟨s, power, rfl, hs, hpower⟩
  split_ifs with hone
  · exact ⟨ds, [], _, rfl, hds, .inl rfl, hexponent, nofun⟩
  · have hpositive : 0 < ds.length := List.length_pos_iff.mpr hds.1.1
    have hmore : 1 < ds.length := Nat.lt_of_le_of_ne hpositive fun h => hone (beq_iff_eq.mpr h.symm)
    refine ⟨ds.take 1, '.' :: ds.drop 1, _, List.append_assoc _ _ _, hds.take Nat.one_pos, ?_, hexponent, nofun⟩
    exact .inr ⟨_, rfl, hds.1.drop hmore⟩

theorem isFloatText_positional (hds : IsWhole ds) {point : Int} (hzero : ds = ['0'] → point ≤ 1) :
    IsFloatText (if point ≤ 0 then ['0', '.'] ++ List.replicate (-point).toNat '0' ++ ds
      else if (ds.length : Int) ≤ point then ds ++ List.replicate (point - ds.length).toNat '0' ++ ['.', '0']
      else ds.take point.toNat ++ ['.'] ++ ds.drop point.toNat) := by
  split_ifs with hbelow habove
  · exact ⟨['0'], _, [], (List.append_nil _).symm, isWhole_zero,
      .inr ⟨_, rfl, areDigits_replicate_append hds.1⟩, .inl rfl, nofun⟩
  · refine ⟨_, ['.', '0'], [], rfl, hds.append_zeros fun h => ?_, .inr ⟨['0'], rfl, isWhole_zero.1⟩, .inl rfl, nofun⟩
    have hlength : ds.length = 1 := by rw [h]; rfl
    have hpoint := hzero h
    omega
  · refine ⟨ds.take point.toNat, '.' :: ds.drop point.toNat, [], ?_, hds.take (by omega), ?_, .inl rfl, nofun⟩
    · rw [List.append_nil, List.append_assoc]
      rfl
    · exact .inr ⟨_, rfl, hds.1.drop (by omega)⟩

/-- However a decimal is laid out, its text has a fraction or an exponent, provided that a zero has no place above the
units. -/
theorem isFloatText_render (l : Layout) {d : Decimal} (hd : d.digits = 0 → d.exponent = 0) :
    IsFloatText (l.render d).toList := by
  have hds : IsWhole (Nat.toDigits 10 d.digits) := isWhole_toDigits _
  have hlength : (toString d.digits).length = (Nat.toDigits 10 d.digits).length := by simp [← String.length_toList]
  have hzero : Nat.toDigits 10 d.digits = ['0'] → (Nat.toDigits 10 d.digits).length + d.exponent ≤ 1 := by
    intro h
    have hdigits : d.digits = 0 := by rw [← valueOf_toDigits d.digits, h]; rfl
    rw [h, hd hdigits]
    decide
  unfold Layout.render
  dsimp only
  rw [hlength]
  by_cases hpositional : l.positionalFrom < (Nat.toDigits 10 d.digits).length + d.exponent ∧
      (Nat.toDigits 10 d.digits).length + d.exponent ≤ l.positionalBelow
  · rw [if_pos hpositional]
    have htext := isFloatText_positional hds hzero
    split_ifs at htext ⊢
    · simpa [zeros] using htext
    · simpa [zeros] using htext
    · simpa using htext
  · rw [if_neg hpositional]
    have hpower (n : Nat) : AreDigits (zeroPad l.exponentWidth (toString n)).toList := by
      simpa [zeroPad] using areDigits_replicate_append (areDigits_toDigits n)
    have htext {s : Char} (hs : s = '+' ∨ s = '-') (n : Nat) := isFloatText_scientific hds hs (hpower n)
    split_ifs at htext ⊢
    · simpa using htext (.inr rfl) _
    · simpa using htext (.inl rfl) _
    · simpa using htext (.inr rfl) _
    · simpa using htext (.inl rfl) _

theorem not_includes_zero {r : Rounding} (hlow : 0 < r.low) (k : Int) : ¬r.includes k 0 = true := by
  have hpositive : 0 < r.low * (Nat.pow 2 (scale r.exponent).1 * Nat.pow 10 (scale k).2) :=
    Nat.mul_pos hlow (Nat.mul_pos (Nat.pow_pos (by decide)) (Nat.pow_pos (by decide)))
  unfold Rounding.includes
  dsimp only
  rw [Nat.zero_mul]
  split_ifs
  · simp only [Bool.and_eq_true, decide_eq_true_eq]
    omega
  · simp only [Bool.and_eq_true, decide_eq_true_eq]
    omega

theorem includes_of_onGrid? {r : Rounding} {k : Int} {d : Decimal} (h : r.onGrid? k = some d) :
    r.includes k d.digits = true := by
  unfold Rounding.onGrid? at h
  dsimp only at h
  by_cases hnearest : r.includes k (roundDiv (r.value * (Nat.pow 2 (scale r.exponent).1 * Nat.pow 10 (scale k).2))
      (Nat.pow 10 (scale k).1 * Nat.pow 2 (scale r.exponent).2)) = true
  · rw [if_pos hnearest] at h
    cases h
    exact hnearest
  · rw [if_neg hnearest, Option.ite_none_right_eq_some] at h
    obtain ⟨hother, hd⟩ := h
    cases hd
    exact hother

theorem exponent_refine {r : Rounding} (hlow : 0 < r.low) (n : Nat) (k : Int) (h : (r.refine n k).digits = 0) :
    (r.refine n k).exponent = 0 := by
  induction n generalizing k with
  | zero => rfl
  | succ n ih =>
    rw [Rounding.refine] at h ⊢
    cases hgrid : r.onGrid? k with
    | none =>
      rw [hgrid] at h
      exact ih _ h
    | some d =>
      rw [hgrid] at h
      have hincludes := includes_of_onGrid? hgrid
      rw [show d.digits = 0 from h] at hincludes
      exact absurd hincludes (not_includes_zero hlow k)

theorem exponent_shortest {m : Nat} (hm : m ≠ 0) (e : Int) (h : (shortest m e).digits = 0) :
    (shortest m e).exponent = 0 := by
  refine exponent_refine ?_ _ _ h
  dsimp only [Rounding.of]
  split_ifs <;> omega

end Layouts

section Values

variable {n : Nat}

theorem readValue_of_isDigit (hc : c.isDigit = true) : readValue (n + 1) (c :: cs) = readNumber false (c :: cs) := by
  unfold readValue
  split
  all_goals simp_all

theorem readValue_minus_of_isDigit (hc : c.isDigit = true) :
    readValue (n + 1) ('-' :: c :: cs) = readNumber true (c :: cs) := by
  simp only [readValue]
  split
  next heq =>
    obtain rfl := (List.cons.inj heq).1
    exact absurd hc (by decide)
  · rfl

theorem AreDigits.exists_cons (h : AreDigits ds) : ∃ c cs, ds = c :: cs ∧ c.isDigit = true := by
  obtain ⟨c, cs, rfl⟩ := List.exists_cons_of_ne_nil h.1
  exact ⟨c, cs, rfl, h.2 c List.mem_cons_self⟩

theorem toList_toString (m : Int) :
    (toString m).toList = if m < 0 then '-' :: Nat.toDigits 10 m.natAbs else Nat.toDigits 10 m.natAbs := by
  rw [Int.toString_eq_repr, Int.repr_eq_if]
  by_cases h : m < 0
  · have habs : (-m).toNat = m.natAbs := by omega
    rw [if_neg (by omega), if_pos h, String.toList_append, Nat.toList_repr, habs]
    simp
  · have habs : m.toNat = m.natAbs := by omega
    rw [if_pos (by omega), if_neg h, Nat.toList_repr, habs]

theorem readValue_toString {m : Int} (hm : m.natAbs < 10 ^ maxDigits) (hrest : Closes rest) :
    readValue (n + 1) ((toString m).toList ++ rest) = .ok (.int m, rest) := by
  have hwhole := isWhole_toDigits m.natAbs
  have hlength : (Nat.toDigits 10 m.natAbs).length ≤ maxDigits :=
    (Nat.length_toDigits_le_iff (by decide) (by decide)).mpr hm
  have hread (negative : Bool) : readNumber negative (Nat.toDigits 10 m.natAbs ++ rest) =
      .ok (.int (signed negative m.natAbs), rest) := by
    rw [readNumber_of_isWhole hwhole hlength hrest, valueOf_toDigits]
  obtain ⟨c, cs, hcs, hc⟩ := hwhole.1.exists_cons
  rw [hcs] at hread
  rw [toList_toString, hcs]
  split_ifs with hneg
  · have hsigned : signed true m.natAbs = m := by
      rw [signed, if_pos rfl]
      omega
    rw [List.cons_append, List.cons_append, readValue_minus_of_isDigit hc, ← List.cons_append, hread, hsigned]
  · have hsigned : signed false m.natAbs = m := by
      rw [signed, if_neg nofun]
      omega
    rw [List.cons_append, readValue_of_isDigit hc, ← List.cons_append, hread, hsigned]

theorem isFloatText_magnitude (m : Nat) (e : Int) :
    IsFloatText (if m == 0 then "0.0" else floatLayout.render (shortest m e)).toList := by
  split_ifs with hm
  · exact ⟨['0'], ['.', '0'], [], rfl, isWhole_zero, .inr ⟨['0'], rfl, isWhole_zero.1⟩, .inl rfl, nofun⟩
  · exact isFloatText_render _ (exponent_shortest (by simpa using hm) e)

theorem IsFloatText.exists_cons (h : IsFloatText cs) : ∃ c ds, cs = c :: ds ∧ c.isDigit = true := by
  obtain ⟨whole, places, power, rfl, hwhole, -⟩ := h
  obtain ⟨c, ds, rfl, hc⟩ := hwhole.1.exists_cons
  exact ⟨c, ds ++ (places ++ power), rfl, hc⟩

/-- A float is read as some float, whatever follows it. -/
theorem exists_readValue_number (x : Float) :
    ∃ y, ∀ n rest, Closes rest → readValue (n + 1) ((number x).toList ++ rest) = .ok (.float y, rest) := by
  unfold number
  cases hx : Binary.ofFloat x with
  | notANumber => exact ⟨0.0 / 0.0, fun n rest _ => by simp [readValue, readName, dropWord?]⟩
  | infinite negative =>
    cases negative with
    | true => exact ⟨-1.0 / 0.0, fun n rest _ => by simp [readValue, readName, dropWord?]⟩
    | false => exact ⟨1.0 / 0.0, fun n rest _ => by simp [readValue, readName, dropWord?]⟩
  | finite negative m e =>
    have htext := isFloatText_magnitude m e
    obtain ⟨c, cs, hcs, hc⟩ := htext.exists_cons
    obtain ⟨y, hy⟩ := htext.exists_readNumber negative
    refine ⟨y, fun n rest hrest => ?_⟩
    have hread := hy rest hrest
    simp only [floatText, hx, String.toList_append]
    rw [hcs] at hread ⊢
    cases negative with
    | true => exact (readValue_minus_of_isDigit hc).trans hread
    | false => exact (readValue_of_isDigit hc).trans hread

end Values

end CommentGrade.Json
