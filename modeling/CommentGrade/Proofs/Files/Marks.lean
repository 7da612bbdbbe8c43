import CommentGrade.Files.Reading
import CommentGrade.Proofs.Decoding.Candidates
import Mathlib.Algebra.Order.Field.Basic
import Mathlib.Algebra.Order.Ring.Rat
import Mathlib.Tactic.NormNum

/-!
# Byte-order marks of source files

A source file whose text is marked as UTF-16 has its text without the mark, provided that it is taken for a text at all.
That is decided on the bytes: a character below 256 has a zero byte in UTF-16, which counts as a control character, so
most texts of the Latin script are taken for binary. A file marked as UTF-8 is always read, and the mark stays in front
of its text.
-/
namespace CommentGrade.Files

open Decoding Encoding

section Share

theorem isControl_iff {b : UInt8} :
    isControl b = true ↔ b.toNat < 0x20 ∧ b.toNat ≠ 9 ∧ b.toNat ≠ 10 ∧ b.toNat ≠ 13 := by
  simp only [isControl, Bool.or_eq_true, Bool.and_eq_true, decide_eq_true_eq, beq_iff_eq]
  omega

/-- Bytes are a text if fewer than three in ten are control characters. -/
theorem isText_iff {bs : List UInt8} (h : bs ≠ []) :
    isText usualThreshold bs = true ↔ 10 * bs.countP isControl < 3 * bs.length := by
  have hlength : (0 : Rat) < (bs.length : Rat) := Nat.cast_pos.mpr (List.length_pos_iff.mpr h)
  have hempty : bs.isEmpty = false := List.isEmpty_eq_false_iff.mpr h
  have hthreshold : usualThreshold = 3 / 10 := by norm_num [usualThreshold]
  rw [isText, hempty, Bool.false_or, decide_eq_true_iff, hthreshold, div_lt_div_iff₀ hlength (by norm_num)]
  norm_cast
  rw [Nat.mul_comm]

theorem countP_utf8Bytes {cs : List Char} (h : ∀ c ∈ cs, c.toNat < 0x20 → c = '\t' ∨ c = '\n' ∨ c = '\r') :
    (utf8Bytes cs).countP isControl = 0 := by
  rw [List.countP_eq_zero]
  intro b hb hcontrol
  obtain ⟨hlt, hnine, hten, hthirteen⟩ := isControl_iff.mp hcontrol
  obtain ⟨c, hc, hcode⟩ := (toNat_of_mem_utf8Bytes hb).2 (by omega)
  rcases h c hc (by omega) with rfl | rfl | rfl
  · exact hnine hcode
  · exact hten hcode
  · exact hthirteen hcode

theorem utf16Bytes_of_lt (lowFirst : Bool) {cs : List Char} (h : ∀ c ∈ cs, c.toNat < 0x100) :
    (utf16Bytes lowFirst cs).length = 2 * cs.length ∧ cs.length ≤ (utf16Bytes lowFirst cs).countP isControl := by
  induction cs with
  | nil => exact ⟨rfl, Nat.zero_le _⟩
  | cons c cs ih =>
    obtain ⟨hc, hcs⟩ := List.forall_mem_cons.mp h
    obtain ⟨hlength, hcount⟩ := ih hcs
    have hunits : unitsOf c = [c.toNat] := if_pos (by omega)
    have hbytes : utf16Bytes lowFirst (c :: cs) = unitBytes lowFirst c.toNat ++ utf16Bytes lowFirst cs := by
      rw [utf16Bytes, List.flatMap_cons, hunits, List.singleton_append, List.flatMap_cons, utf16Bytes]
    have hzero : 0 < (unitBytes lowFirst c.toNat).countP isControl := by
      rw [List.countP_pos_iff, unitBytes, Nat.div_eq_of_lt hc]
      exact ⟨0, by cases lowFirst <;> simp, rfl⟩
    rw [hbytes, List.length_append, length_unitBytes, List.countP_append, List.length_cons]
    omega

end Share

section Marks

variable (cs : List Char)

/-- The mark of UTF-8 is kept as a character. -/
theorem readText?_utf8Mark (h : ∀ c ∈ cs, c.toNat < 0x20 → c = '\t' ∨ c = '\n' ∨ c = '\r') :
    readText? sourceCandidates (some (utf8Mark ++ utf8Bytes cs)) = some ('\ufeff' :: cs) := by
  have hmarked : ∀ c ∈ '\ufeff' :: cs, c.toNat < 0x20 → c = '\t' ∨ c = '\n' ∨ c = '\r' :=
    List.forall_mem_cons.mpr ⟨by decide, h⟩
  have hne : utf8Bytes ('\ufeff' :: cs) ≠ [] := by
    rw [utf8Bytes_mark]
    exact List.cons_ne_nil _ _
  have htext : isText usualThreshold (utf8Bytes ('\ufeff' :: cs)) = true := by
    rw [isText_iff hne, countP_utf8Bytes hmarked]
    exact Nat.mul_pos (by decide) (List.length_pos_iff.mpr hne)
  rw [← utf8Bytes_mark, readText?, htext, if_pos rfl, sourceCandidates, firstFit?_utf8Bytes]

/-- The mark of UTF-16 is dropped, if the bytes are taken for a text. -/
theorem readText?_utf16Mark (lowFirst : Bool) :
    readText? sourceCandidates (some (utf16Mark lowFirst ++ utf16Bytes lowFirst cs)) =
      if isText usualThreshold (utf16Mark lowFirst ++ utf16Bytes lowFirst cs) then some cs else none := by
  have hutf16 : Encoding.utf16.decode? (utf16Mark lowFirst ++ utf16Bytes lowFirst cs) = some cs := by
    rw [decode?, utf16?_mark_append, orderedUtf16?_eq_some_iff]
  rw [readText?, sourceCandidates, firstFit?_of_not_utf8 (utf8?_utf16Mark_append _ _), firstFit?_cons_of_some hutf16]

/-- A file marked as UTF-8 is read with the mark in front of its text. One marked as UTF-16 is read without it exactly
if fewer than three bytes in ten are control characters, which they are not in a text of two or more ASCII
characters. -/
theorem readText?_marked :
    ((∀ c ∈ cs, c.toNat < 0x20 → c = '\t' ∨ c = '\n' ∨ c = '\r') →
      readText? sourceCandidates (some (utf8Mark ++ utf8Bytes cs)) = some ('\ufeff' :: cs)) ∧
    (∀ lowFirst, let bs := utf16Mark lowFirst ++ utf16Bytes lowFirst cs
      (readText? sourceCandidates (some bs) = some cs ↔ 10 * bs.countP isControl < 3 * bs.length)) ∧
    ((∀ c ∈ cs, c.toNat < 0x80) → 2 ≤ cs.length → ∀ lowFirst,
      readText? sourceCandidates (some (utf16Mark lowFirst ++ utf16Bytes lowFirst cs)) = none) := by
  have hne : ∀ lowFirst, utf16Mark lowFirst ++ utf16Bytes lowFirst cs ≠ [] := by
    intro lowFirst
    cases lowFirst <;> exact List.cons_ne_nil _ _
  refine ⟨readText?_utf8Mark cs, ?_, ?_⟩
  · intro lowFirst bs
    rw [← isText_iff (hne lowFirst), readText?_utf16Mark]
    cases isText usualThreshold bs <;> simp
  · intro hascii htwo lowFirst
    obtain ⟨hlength, hcount⟩ := utf16Bytes_of_lt lowFirst fun c hc => (hascii c hc).trans (by decide)
    have hbinary : ¬ isText usualThreshold (utf16Mark lowFirst ++ utf16Bytes lowFirst cs) = true := by
      have hmark : (utf16Mark lowFirst).length = 2 := length_unitBytes lowFirst 0xfeff
      rw [isText_iff (hne lowFirst), List.countP_append, List.length_append, hlength, hmark]
      omega
    rw [readText?_utf16Mark, if_neg hbinary]

end Marks

/-- The letter a behind the mark of UTF-8 keeps it, and two letters marked as UTF-16 are taken for binary. -/
theorem readText?_marked_letters :
    readText? sourceCandidates (some [0xef, 0xbb, 0xbf, 0x61]) = some ['\ufeff', 'a'] ∧
      readText? sourceCandidates (some [0xff, 0xfe, 0x61, 0x00, 0x62, 0x00]) = none := by
  decide +kernel

end CommentGrade.Files
