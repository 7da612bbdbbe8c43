/-!
# Unicode encodings

UTF-8 is read strictly: no surrogates, no overlong forms, nothing beyond the last code point. A text in UTF-16 may
begin with a mark that tells the order of its bytes; without it the low byte comes first.
-/
namespace CommentGrade.Decoding

def utf8? (bs : List UInt8) : Option (List Char) := (String.fromUTF8? ⟨bs.toArray⟩).map String.toList

/-- The text of bytes in UTF-8, without the mark it may begin with. -/
def markedUtf8? : List UInt8 → Option (List Char)
  | 0xef :: 0xbb :: 0xbf :: bs => utf8? bs
  | bs => utf8? bs

/-- The code units of bytes taken in pairs. -/
def units? (lowFirst : Bool) : List UInt8 → Option (List Nat)
  | [] => some []
  | [_] => none
  | a :: b :: bs =>
    (units? lowFirst bs).map fun us =>
      (if lowFirst then a.toNat + 256 * b.toNat else 256 * a.toNat + b.toNat) :: us

/-- The characters of code units; surrogates must come in pairs. -/
def ofUnits? : List Nat → Option (List Char)
  | [] => some []
  | u :: us =>
    if u < 0xd800 ∨ 0xe000 ≤ u then (ofUnits? us).map (Char.ofNat u :: ·)
    else if 0xdc00 ≤ u then none
    else
      match us with
      | [] => none
      | v :: us =>
        if 0xdc00 ≤ v ∧ v < 0xe000 then
          (ofUnits? us).map (Char.ofNat (0x10000 + (u - 0xd800) * 0x400 + (v - 0xdc00)) :: ·)
        else none

/-- The text of bytes in UTF-16 with a known order. -/
def orderedUtf16? (lowFirst : Bool) (bs : List UInt8) : Option (List Char) :=
  units? lowFirst bs >>= ofUnits?

def utf16? : List UInt8 → Option (List Char)
  | 0xff :: 0xfe :: bs => orderedUtf16? true bs
  | 0xfe :: 0xff :: bs => orderedUtf16? false bs
  | bs => orderedUtf16? true bs

end CommentGrade.Decoding
