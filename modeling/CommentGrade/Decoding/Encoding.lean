import CommentGrade.Decoding.Page932
import CommentGrade.Decoding.Unicode

/-!
# Encodings

The encodings that files are read in. A file is decoded with the first of some candidates that fits.
-/
namespace CommentGrade

inductive Encoding where
  | utf8
  /-- UTF-8, perhaps with a byte-order mark, which is dropped. -/
  | markedUtf8
  | utf16
  | utf16LowFirst
  | utf16HighFirst
  | page1252
  | latin1
  | ascii
  | page932
  deriving DecidableEq, Repr

namespace Decoding

/-- The characters of code page 1252 from 80 to 9F; five bytes have none. -/
def page1252Row : List (Option Nat) :=
  [some 0x20ac, none, some 0x201a, some 0x192, some 0x201e, some 0x2026, some 0x2020, some 0x2021,
    some 0x2c6, some 0x2030, some 0x160, some 0x2039, some 0x152, none, some 0x17d, none,
    none, some 0x2018, some 0x2019, some 0x201c, some 0x201d, some 0x2022, some 0x2013, some 0x2014,
    some 0x2dc, some 0x2122, some 0x161, some 0x203a, some 0x153, none, some 0x17e, some 0x178]

/-- The character of a byte in code page 1252. -/
def byte1252? (b : UInt8) : Option Char :=
  if 0x80 ≤ b.toNat ∧ b.toNat < 0xa0 then ((page1252Row[b.toNat - 0x80]?).join).map Char.ofNat
  else some (Char.ofNat b.toNat)

/-- The text of bytes each of which is a character. -/
def bytewise? (f : UInt8 → Option Char) : List UInt8 → Option (List Char)
  | [] => some []
  | b :: bs => do
    let c ← f b
    let cs ← bytewise? f bs
    return c :: cs

end Decoding

namespace Encoding

open Decoding

/-- The text of bytes, if they fit the encoding. -/
def decode? : Encoding → List UInt8 → Option (List Char)
  | .utf8 => utf8?
  | .markedUtf8 => markedUtf8?
  | .utf16 => utf16?
  | .utf16LowFirst => orderedUtf16? true
  | .utf16HighFirst => orderedUtf16? false
  | .page1252 => bytewise? byte1252?
  | .latin1 => bytewise? fun b => some (Char.ofNat b.toNat)
  | .ascii => bytewise? fun b => if b.toNat < 0x80 then some (Char.ofNat b.toNat) else none
  | .page932 => page932?

/-- The encoding with a name. Case does not count, nor does the kind of dash. -/
def ofName? (name : String) : Option Encoding :=
  let plain := String.ofList (name.toList.map fun c => if c = '_' ∨ c = ' ' then '-' else c.toLower)
  let names : List (Encoding × List String) :=
    [(.utf8, ["utf-8", "utf8", "u8", "utf", "cp65001"]), (.markedUtf8, ["utf-8-sig"]),
      (.utf16, ["utf-16", "utf16", "u16"]), (.utf16LowFirst, ["utf-16-le", "utf-16le"]),
      (.utf16HighFirst, ["utf-16-be", "utf-16be"]), (.page1252, ["cp1252", "windows-1252", "1252"]),
      (.latin1, ["latin-1", "latin1", "latin", "iso-8859-1", "iso8859-1", "8859", "cp819", "l1"]),
      (.ascii, ["ascii", "us-ascii", "646"]),
      (.page932, ["cp932", "932", "ms932", "mskanji", "ms-kanji", "windows-31j"])]
  (names.find? (·.2.contains plain)).map (·.1)

/-- The text of bytes in the first candidate that they fit. -/
def firstFit? (candidates : List Encoding) (bs : List UInt8) : Option (List Char) :=
  candidates.findSome? (·.decode? bs)

/-- The candidates for source files, the last of which fits always. -/
def sourceCandidates : List Encoding := [.utf8, .markedUtf8, .utf16, .page1252, .latin1]

/-- The candidates for settings files. -/
def settingsCandidates : List Encoding := [.utf8, .markedUtf8, .utf16, .page932]

end Encoding

end CommentGrade
