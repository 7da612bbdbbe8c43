import CommentGrade.Proofs.Decoding.WellFormed
import CommentGrade.Proofs.Files.Marks

/-!
# Which files have a text

The share of control characters alone decides whether a file has a text: the last candidate takes every byte for a
character, so there is always a candidate that fits. What is well-formed UTF-8 is read as UTF-8, so that writing the
text gives the bytes of the file again.
-/
namespace CommentGrade.Files

open Decoding Encoding

/-- Bytes that are taken for binary: three or more in ten are control characters. -/
def Binary (bs : List UInt8) : Prop := bs ≠ [] ∧ 3 * bs.length ≤ 10 * bs.countP isControl

theorem isText_iff_not_binary {bs : List UInt8} : isText usualThreshold bs = true ↔ ¬Binary bs := by
  cases bs with
  | nil => exact iff_of_true rfl fun h => h.1 rfl
  | cons b bs =>
    have hne := List.cons_ne_nil b bs
    rw [isText_iff hne, Binary, and_iff_right hne, Nat.not_le]

theorem latin1_fits (bs : List UInt8) : ∃ cs, Encoding.latin1.decode? bs = some cs := by
  induction bs with
  | nil => exact ⟨[], rfl⟩
  | cons b bs ih =>
    obtain ⟨cs, hcs⟩ := ih
    rw [decode?] at hcs ⊢
    exact ⟨Char.ofNat b.toNat :: cs, by rw [bytewise?, hcs]; rfl⟩

theorem exists_firstFit? {es : List Encoding} (h : .latin1 ∈ es) (bs : List UInt8) :
    ∃ cs, firstFit? es bs = some cs := by
  obtain ⟨cs, hcs⟩ := latin1_fits bs
  have hfits : (firstFit? es bs).isSome = true := List.findSome?_isSome_iff.mpr ⟨_, h, by simp [hcs]⟩
  exact Option.isSome_iff_exists.mp hfits

theorem readText?_eq_none_iff {bs : List UInt8} : readText? sourceCandidates (some bs) = none ↔ Binary bs := by
  have hlast : .latin1 ∈ sourceCandidates := by decide
  obtain ⟨cs, hcs⟩ := exists_firstFit? hlast bs
  rw [readText?, hcs, ← not_iff_not, ← isText_iff_not_binary]
  cases isText usualThreshold bs <;> simp

theorem readText?_utf8Bytes {cs : List Char} (h : ¬Binary (utf8Bytes cs)) :
    readText? sourceCandidates (some (utf8Bytes cs)) = some cs := by
  rw [readText?, isText_iff_not_binary.mpr h, if_pos rfl, sourceCandidates, firstFit?_utf8Bytes]

/-- A file has no text exactly if its bytes are taken for binary. The text of a file is written with the bytes of the file
exactly if these are well-formed UTF-8, and a text that is written as UTF-8 comes back unless its bytes are taken for
binary. -/
theorem readText?_exact (bs : List UInt8) :
    (readText? sourceCandidates (some bs) = none ↔ Binary bs) ∧
    (∀ cs, readText? sourceCandidates (some bs) = some cs → (utf8Bytes cs = bs ↔ WellFormed bs)) ∧
    (∀ cs, utf8Bytes cs = bs → (readText? sourceCandidates (some bs) = some cs ↔ ¬Binary bs)) := by
  refine ⟨readText?_eq_none_iff, ?_, ?_⟩
  · intro cs hcs
    constructor
    · intro hbytes
      exact wellFormed_iff.mpr ⟨cs, hbytes⟩
    · intro hwell
      obtain ⟨ds, rfl⟩ := wellFormed_iff.mp hwell
      have htext : ¬Binary (utf8Bytes ds) := by
        rw [← readText?_eq_none_iff, hcs]
        nofun
      rw [readText?_utf8Bytes htext] at hcs
      rw [Option.some.inj hcs]
  · rintro cs rfl
    constructor
    · intro hread hbinary
      rw [readText?_eq_none_iff.mpr hbinary] at hread
      cases hread
    · exact readText?_utf8Bytes

end CommentGrade.Files
