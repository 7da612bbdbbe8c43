import CommentGrade.Files.Reading
import CommentGrade.Proofs.Decoding.Candidates
import CommentGrade.Settings.Loading

/-!
# Older encodings

Bytes that are neither UTF-8 nor marked as UTF-16 may be meant for a code page. The candidates before it decide: UTF-16
without a mark takes all bytes that are the form of some text, whatever they were meant for. So the code page is read
exactly where there is no such form, above all where the number of bytes is odd.
-/
namespace CommentGrade

open Decoding Encoding Files

namespace Decoding

theorem bytewise?_length {f : UInt8 → Option Char} {bs : List UInt8} {cs : List Char} (h : bytewise? f bs = some cs) :
    cs.length = bs.length := by
  induction bs generalizing cs with
  | nil =>
    cases h
    rfl
  | cons b bs ih =>
    simp only [bytewise?, Option.bind_eq_bind, Option.bind_eq_some_iff, Option.pure_def, Option.some.injEq] at h
    obtain ⟨c, -, ds, hds, rfl⟩ := h
    rw [List.length_cons, List.length_cons, ih hds]

theorem length_le_of_utf16Bytes (lowFirst : Bool) (cs : List Char) :
    2 * cs.length ≤ (utf16Bytes lowFirst cs).length := by
  rw [length_utf16Bytes]
  exact Nat.mul_le_mul_left 2 (length_le_length_units cs)

end Decoding

/-- A text without the marks in front of it. -/
def withoutMarks (cs : List Char) : List Char := cs.dropWhile (· == '\ufeff')

theorem decode?_of_ne_toml {format : SettingsFormat} (h : format ≠ .toml) (bs : List UInt8) :
    Settings.decode? format bs = (firstFit? settingsCandidates bs).map withoutMarks := by
  cases format with
  | toml => exact absurd rfl h
  | yaml | json => rfl

section Legacy

variable {bs : List UInt8} (hutf8 : ∀ cs, bs ≠ utf8Bytes cs) (hmark : ∀ lowFirst, ¬ utf16Mark lowFirst <+: bs)

include hutf8 hmark

/-- A code page behind UTF-16 has what is the form of no text in it. -/
theorem firstFit?_page {e : Encoding} {cs : List Char} (hpage : e.decode? bs = some cs) (es : List Encoding) :
    firstFit? (.utf8 :: .markedUtf8 :: .utf16 :: e :: es) bs = some ((orderedUtf16? true bs).getD cs) := by
  have hutf16 : Encoding.utf16.decode? bs = orderedUtf16? true bs := utf16?_of_not_marked hmark
  rw [firstFit?_of_not_utf8 (utf8?_eq_none_iff.mpr hutf8)]
  cases hfits : orderedUtf16? true bs with
  | none => rw [firstFit?_cons_of_none (hutf16.trans hfits), firstFit?_cons_of_some hpage, Option.getD_none]
  | some ds => rw [firstFit?_cons_of_some (hutf16.trans hfits), Option.getD_some]

theorem readText?_page1252 {cs : List Char} (htext : isText usualThreshold bs = true)
    (hpage : Encoding.page1252.decode? bs = some cs) :
    readText? sourceCandidates (some bs) = some cs ↔ ∀ ds, bs ≠ utf16Bytes true ds := by
  simp only [readText?, htext, if_true, sourceCandidates, firstFit?_page hutf8 hmark hpage, Option.some.injEq]
  rw [← orderedUtf16?_eq_none_iff]
  cases hfits : orderedUtf16? true bs with
  | none => exact ⟨fun _ => rfl, fun _ => rfl⟩
  | some ds =>
    refine ⟨?_, nofun⟩
    intro hread
    obtain rfl : ds = cs := hread
    have hlength : ds.length = bs.length := bytewise?_length hpage
    have hhalf := length_le_of_utf16Bytes true ds
    rw [← orderedUtf16?_eq_some_iff.mp hfits] at hhalf
    have hempty : bs = [] := List.length_eq_zero_iff.mp (by omega)
    exact absurd hempty (hutf8 [])

theorem decode?_page932 {format : SettingsFormat} {cs : List Char} (hformat : format ≠ .toml)
    (hpage : Encoding.page932.decode? bs = some cs) :
    Settings.decode? format bs = some (withoutMarks cs) ↔
      ∀ ds, bs = utf16Bytes true ds → withoutMarks ds = withoutMarks cs := by
  rw [decode?_of_ne_toml hformat, settingsCandidates, firstFit?_page hutf8 hmark hpage, Option.map_some,
    Option.some.injEq]
  constructor
  · rintro hread ds hds
    rw [← hread, orderedUtf16?_eq_some_iff.mpr hds, Option.getD_some]
  · intro hsame
    cases hfits : orderedUtf16? true bs with
    | none => rfl
    | some ds => exact hsame ds (orderedUtf16?_eq_some_iff.mp hfits)

/-- Bytes of a code page, neither UTF-8 nor marked as UTF-16, are read in the code page if they are the form of no text
in UTF-16, and in a source file only then. An odd number of bytes is no such form. -/
theorem codePages_iff_not_utf16 :
    (∀ cs, isText usualThreshold bs = true → Encoding.page1252.decode? bs = some cs →
      (readText? sourceCandidates (some bs) = some cs ↔ ∀ ds, bs ≠ utf16Bytes true ds)) ∧
    (∀ format cs, format ≠ .toml → Encoding.page932.decode? bs = some cs →
      (Settings.decode? format bs = some (withoutMarks cs) ↔
        ∀ ds, bs = utf16Bytes true ds → withoutMarks ds = withoutMarks cs)) ∧
    (bs.length % 2 = 1 → ∀ ds, bs ≠ utf16Bytes true ds) := by
  refine ⟨fun cs htext hpage => readText?_page1252 hutf8 hmark htext hpage,
    fun format cs hformat hpage => decode?_page932 hutf8 hmark hformat hpage, ?_⟩
  rintro hodd ds rfl
  rw [length_utf16Bytes] at hodd
  omega

end Legacy

/-- Three bytes are read in both code pages. -/
theorem codePages_iff_not_utf16_odd :
    let bs : List UInt8 := [0xb1, 0xb2, 0xb3]
    (∀ cs, bs ≠ utf8Bytes cs) ∧ (∀ lowFirst, ¬ utf16Mark lowFirst <+: bs) ∧
      readText? sourceCandidates (some bs) = some ['±', '²', '³'] ∧
      Settings.decode? .json bs = some ['ｱ', 'ｲ', 'ｳ'] := by
  intro bs
  have hutf8 : ∀ cs, bs ≠ utf8Bytes cs := utf8?_eq_none_iff.mp (by decide +kernel)
  have hmark : ∀ lowFirst, ¬ utf16Mark lowFirst <+: bs := by decide
  obtain ⟨hsource, hsettings, hodd⟩ := codePages_iff_not_utf16 hutf8 hmark
  have hform : ∀ ds, bs ≠ utf16Bytes true ds := hodd (by decide)
  refine ⟨hutf8, hmark, (hsource _ (by decide +kernel) (by decide +kernel)).mpr hform, ?_⟩
  exact (hsettings .json ['ｱ', 'ｲ', 'ｳ'] (by decide) (by decide +kernel)).mpr fun ds hds => absurd hds (hform ds)

/-- The first two of these bytes are also the form of a text in UTF-16, and are read as that text. -/
theorem codePages_even :
    let bs : List UInt8 := [0xb1, 0xb2]
    (∀ cs, bs ≠ utf8Bytes cs) ∧ (∀ lowFirst, ¬ utf16Mark lowFirst <+: bs) ∧ isText usualThreshold bs = true ∧
      Encoding.page1252.decode? bs = some ['±', '²'] ∧ readText? sourceCandidates (some bs) = some ['\ub2b1'] ∧
      Encoding.page932.decode? bs = some ['ｱ', 'ｲ'] ∧ Settings.decode? .json bs = some ['\ub2b1'] := by
  intro bs
  have hutf8 : ∀ cs, bs ≠ utf8Bytes cs := utf8?_eq_none_iff.mp (by decide +kernel)
  refine ⟨hutf8, by decide, ?_⟩
  decide +kernel

end CommentGrade
