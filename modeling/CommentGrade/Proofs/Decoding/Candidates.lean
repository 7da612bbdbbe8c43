import CommentGrade.Decoding.Encoding
import CommentGrade.Proofs.Decoding.Unicode

/-!
# Candidate encodings

Bytes are read in the first candidate that they fit, whatever the ones behind it make of them. Both lists of candidates
begin with UTF-8, with and without a mark, and UTF-16; what is no UTF-8 is no marked UTF-8 either.
-/
namespace CommentGrade.Encoding

open Decoding

variable {bs : List UInt8}

theorem firstFit?_cons_of_some {e : Encoding} {cs : List Char} (h : e.decode? bs = some cs) (es : List Encoding) :
    firstFit? (e :: es) bs = some cs := by
  rw [firstFit?, List.findSome?_cons, h]

theorem firstFit?_cons_of_none {e : Encoding} (h : e.decode? bs = none) (es : List Encoding) :
    firstFit? (e :: es) bs = firstFit? es bs := by
  rw [firstFit?, List.findSome?_cons, h, firstFit?]

/-- Each text is read from its form in UTF-8. -/
theorem firstFit?_utf8Bytes (cs : List Char) (es : List Encoding) : firstFit? (.utf8 :: es) (utf8Bytes cs) = some cs :=
  firstFit?_cons_of_some (e := .utf8) (utf8?_eq_some_iff.mpr rfl) es

theorem firstFit?_of_not_utf8 (h : utf8? bs = none) (es : List Encoding) :
    firstFit? (.utf8 :: .markedUtf8 :: es) bs = firstFit? es bs := by
  rw [firstFit?_cons_of_none (e := .utf8) h, firstFit?_cons_of_none (e := .markedUtf8) (markedUtf8?_eq_none h)]

end CommentGrade.Encoding
