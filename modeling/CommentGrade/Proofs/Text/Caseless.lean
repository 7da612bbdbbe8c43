import CommentGrade.Text.Case

/-!
# Characters without case

Case is a matter of letters. A character below the small letters of ASCII that is no capital, such as a blank or the
end of a line, is equal up to case to itself alone.
-/
namespace CommentGrade.Text

/-- The small letters of a run are characters, and none comes before the small a. -/
def CapitalRun.WellFormed (r : CapitalRun) : Prop :=
  0x61 ≤ r.target ∧ ∀ k ≤ r.last - r.first, (r.target + k).isValidChar

theorem CapitalRun.wellFormed_of_bounds {r : CapitalRun} (h : 0x61 ≤ r.target)
    (hr : r.target + (r.last - r.first) < 0xd800 ∨
      0xdfff < r.target ∧ r.target + (r.last - r.first) < 0x110000) : r.WellFormed := by
  refine ⟨h, ?_⟩
  intro k hk
  simp only [Nat.isValidChar]
  omega

theorem capitalRuns_wellFormed : ∀ r ∈ capitalRuns, r.WellFormed := by
  have h : ∀ r ∈ capitalRuns, 0x61 ≤ r.target ∧ (r.target + (r.last - r.first) < 0xd800 ∨
      0xdfff < r.target ∧ r.target + (r.last - r.first) < 0x110000) := by decide +kernel
  intro r hr
  exact CapitalRun.wellFormed_of_bounds (h r hr).1 (h r hr).2

theorem capitalSharers_letters : ∀ s ∈ capitalSharers, ∀ c ∈ s, 0x61 ≤ c.toNat := by
  have hall : capitalSharers.all (fun s => s.all fun c => 0x61 ≤ c.toNat) = true := by
    decide +kernel
  intro s hs c hc
  exact of_decide_eq_true (List.all_eq_true.mp (List.all_eq_true.mp hall s hs) c hc)

theorem toNat_ofNat {n : Nat} (h : n.isValidChar) : (Char.ofNat n).toNat = n := by
  have hn : Char.ofNat n = Char.ofNatAux n h := dif_pos h
  rw [hn]
  rfl

/-- Only a capital has another small letter, which stands as far behind it as the small a behind the capital one. -/
theorem toLower_cases (c : Char) :
    0x41 ≤ c.toNat ∧ c.toNat ≤ 0x5a ∧ c.toLower.toNat = c.toNat + 0x20 ∨ c.toLower = c := by
  by_cases hc : c.val ≥ 'A'.val ∧ c.val ≤ 'Z'.val
  · have hlow : 0x41 ≤ c.val.toNat := UInt32.le_iff_toNat_le.mp hc.1
    have hhigh : c.val.toNat ≤ 0x5a := UInt32.le_iff_toNat_le.mp hc.2
    have hlower : c.toLower.toNat = (c.val + ('a'.val - 'A'.val)).toNat := congrArg Char.toNat (dif_pos hc)
    have hd : ('a'.val - 'A'.val).toNat = 0x20 := rfl
    rw [UInt32.toNat_add, hd] at hlower
    refine .inl ⟨hlow, hhigh, ?_⟩
    change c.toLower.toNat = c.val.toNat + 0x20
    omega
  · exact .inr (dif_neg hc)

theorem toLower_eq_of_lt {c : Char} (h : c.toLower.toNat < 0x61) : c.toLower = c := by
  rcases toLower_cases c with ⟨hlow, -, hlower⟩ | hsame
  · omega
  · exact hsame

/-- A character whose small letter comes before the small a is its own small letter. -/
theorem lowerChar_eq_of_lt {c : Char} (h : (lowerChar c).toNat < 0x61) : lowerChar c = c := by
  unfold lowerChar at h ⊢
  by_cases hc : c.toNat < 0x80
  · simp only [hc, if_true] at h ⊢
    exact toLower_eq_of_lt h
  · simp only [hc, if_false] at h ⊢
    cases hr : capitalRuns.findSome? (fun r => r.lower? c.toNat) with
    | none => simp only [Option.getD_none, Char.ofNat_toNat]
    | some n =>
      obtain ⟨r, hmem, hn⟩ := Array.exists_of_findSome?_eq_some hr
      obtain ⟨hlow, hvalid⟩ := capitalRuns_wellFormed r hmem
      simp only [CapitalRun.lower?, Option.ite_none_right_eq_some, Option.some.injEq] at hn
      obtain ⟨⟨hfirst, hlast, -⟩, rfl⟩ := hn
      have hchar := hvalid (c.toNat - r.first) (by omega)
      rw [hr, Option.getD_some, toNat_ofNat hchar] at h
      omega

theorem lowerChar_of_lt {c : Char} (h : c.toNat < 0x41) : lowerChar c = c := by
  rw [lowerChar, if_pos (by omega)]
  rcases toLower_cases c with ⟨hlow, -⟩ | hsame
  · omega
  · exact hsame

theorem caselessEq_iff_of_lt {c d : Char} (h : c.toNat < 0x41) : caselessEq c d = true ↔ d = c := by
  have hc := lowerChar_of_lt h
  have hsharers : ∀ s ∈ capitalSharers, c ∉ s := by
    intro s hs hmem
    have := capitalSharers_letters s hs c hmem
    omega
  constructor
  · intro he
    simp only [caselessEq, hc, Bool.or_eq_true, beq_iff_eq, List.any_eq_true, Bool.and_eq_true,
      List.contains_iff_mem] at he
    rcases he with he | ⟨s, hs, hmem, -⟩
    · rw [he, lowerChar_eq_of_lt (by rw [← he]; omega)]
    · exact absurd hmem (hsharers s hs)
  · rintro rfl
    simp [caselessEq]

theorem caselessEq_comm (c d : Char) : caselessEq c d = caselessEq d c := by
  simp only [caselessEq, Bool.and_comm, BEq.comm]

end CommentGrade.Text
