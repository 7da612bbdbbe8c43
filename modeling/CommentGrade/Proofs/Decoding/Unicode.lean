import CommentGrade.Decoding.Unicode
import CommentGrade.Proofs.Text.Caseless
import Mathlib.Tactic.SplitIfs

/-!
# Written forms in Unicode

A text has one written form in UTF-8, and one in UTF-16 for each order of the bytes. What is read is exactly what is
written: bytes that are no written form have no text, and the others have the text that they are the form of.
-/
namespace CommentGrade.Decoding

section Utf8

/-- The bytes of a text in UTF-8. -/
def utf8Bytes (cs : List Char) : List UInt8 := cs.flatMap String.utf8EncodeChar

theorem utf8Bytes_cons (c : Char) (cs : List Char) : utf8Bytes (c :: cs) = String.utf8EncodeChar c ++ utf8Bytes cs :=
  List.flatMap_cons

theorem eq_utf8Encode_iff {bs : List UInt8} {cs : List Char} :
    (⟨bs.toArray⟩ : ByteArray) = cs.utf8Encode ↔ bs = utf8Bytes cs := by
  have hbs : (⟨bs.toArray⟩ : ByteArray) = bs.toByteArray := ByteArray.ext List.data_toByteArray.symm
  rw [hbs, List.utf8Encode, List.toByteArray_inj, utf8Bytes]

theorem utf8?_eq_some_iff {bs : List UInt8} {cs : List Char} : utf8? bs = some cs ↔ bs = utf8Bytes cs := by
  rw [← eq_utf8Encode_iff, utf8?, String.fromUTF8?]
  by_cases h : ByteArray.IsValidUTF8 ⟨bs.toArray⟩
  · have hlist : (String.fromUTF8 _ h).toList.utf8Encode = ⟨bs.toArray⟩ := String.utf8Encode_toList
    rw [dif_pos h, Option.map_some, Option.some.injEq]
    constructor
    · rintro rfl
      exact hlist.symm
    · intro hcs
      have hs : String.fromUTF8 _ h = String.ofList cs :=
        String.toByteArray_inj.mp (hcs.trans String.toByteArray_ofList.symm)
      rw [hs, String.toList_ofList]
  · rw [dif_neg h, Option.map_none]
    exact ⟨nofun, fun hcs => absurd (.intro cs hcs) h⟩

theorem utf8?_eq_none_iff {bs : List UInt8} : utf8? bs = none ↔ ∀ cs, bs ≠ utf8Bytes cs := by
  rw [Option.eq_none_iff_forall_ne_some]
  exact forall_congr' fun cs => not_congr utf8?_eq_some_iff

/-- A byte of UTF-8 is an ASCII character or beyond ASCII, and none of the last eight bytes. -/
theorem toNat_of_mem_utf8EncodeChar {c : Char} {b : UInt8} (h : b ∈ String.utf8EncodeChar c) :
    b.toNat < 0xf8 ∧ (b.toNat < 0x80 → b.toNat = c.toNat) := by
  have hv : c.val.toNat = c.toNat := rfl
  simp only [String.utf8EncodeChar, hv] at h
  split_ifs at h with hone htwo hthree <;>
    simp only [List.mem_cons, List.not_mem_nil, or_false] at h
  · subst h
    rw [UInt8.toNat_ofNat']
    omega
  · rcases h with rfl | rfl <;> rw [UInt8.toNat_ofNat'] <;> omega
  · rcases h with rfl | rfl | rfl <;> rw [UInt8.toNat_ofNat'] <;> omega
  · rcases h with rfl | rfl | rfl | rfl <;> rw [UInt8.toNat_ofNat'] <;> omega

theorem toNat_of_mem_utf8Bytes {cs : List Char} {b : UInt8} (h : b ∈ utf8Bytes cs) :
    b.toNat < 0xf8 ∧ (b.toNat < 0x80 → ∃ c ∈ cs, b.toNat = c.toNat) := by
  obtain ⟨c, hc, hb⟩ := List.mem_flatMap.mp h
  obtain ⟨hlast, hascii⟩ := toNat_of_mem_utf8EncodeChar hb
  exact ⟨hlast, fun hlt => ⟨c, hc, hascii hlt⟩⟩

theorem utf8?_eq_none_of_mem {bs : List UInt8} {b : UInt8} (hb : b ∈ bs) (h : 0xf8 ≤ b.toNat) : utf8? bs = none := by
  rw [utf8?_eq_none_iff]
  rintro cs rfl
  exact absurd (toNat_of_mem_utf8Bytes hb).1 (Nat.not_lt.mpr h)

/-- The mark in front of bytes in UTF-8. -/
def utf8Mark : List UInt8 := [0xef, 0xbb, 0xbf]

theorem utf8Bytes_mark (cs : List Char) : utf8Bytes ('\ufeff' :: cs) = utf8Mark ++ utf8Bytes cs := by
  rw [utf8Bytes_cons]
  rfl

theorem markedUtf8?_eq_none {bs : List UInt8} (h : utf8? bs = none) : markedUtf8? bs = none := by
  unfold markedUtf8?
  split
  next bs =>
    rw [utf8?_eq_none_iff] at h ⊢
    rintro cs rfl
    exact h ('\ufeff' :: cs) (utf8Bytes_mark cs).symm
  next => exact h

end Utf8

section Utf16

/-- The code units of a character: beyond the first 65536 characters a high and a low surrogate. -/
def unitsOf (c : Char) : List Nat :=
  if c.toNat < 0x10000 then [c.toNat]
  else [0xd800 + (c.toNat - 0x10000) / 0x400, 0xdc00 + (c.toNat - 0x10000) % 0x400]

/-- The two bytes of a code unit. -/
def unitBytes (lowFirst : Bool) (u : Nat) : List UInt8 :=
  if lowFirst then [UInt8.ofNat u, UInt8.ofNat (u / 256)] else [UInt8.ofNat (u / 256), UInt8.ofNat u]

/-- The bytes of a text in UTF-16 with a known order. -/
def utf16Bytes (lowFirst : Bool) (cs : List Char) : List UInt8 := (cs.flatMap unitsOf).flatMap (unitBytes lowFirst)

theorem toNat_lt (c : Char) : c.toNat < 0xd800 ∨ 0xdfff < c.toNat ∧ c.toNat < 0x110000 := c.valid

theorem unitsOf_lt {c : Char} {u : Nat} (h : u ∈ unitsOf c) : u < 0x10000 := by
  have hc := toNat_lt c
  unfold unitsOf at h
  split_ifs at h with hsmall
  · rw [List.mem_singleton] at h
    omega
  · simp only [List.mem_cons, List.not_mem_nil, or_false] at h
    omega

theorem length_unitBytes (lowFirst : Bool) (u : Nat) : (unitBytes lowFirst u).length = 2 := by
  cases lowFirst <;> rfl

theorem unitBytes_eq_iff {lowFirst : Bool} {a b : UInt8} {u : Nat} :
    (if lowFirst then a.toNat + 256 * b.toNat else 256 * a.toNat + b.toNat) = u ↔
      unitBytes lowFirst u = [a, b] ∧ u < 0x10000 := by
  have ha := a.toNat_lt
  have hb := b.toNat_lt
  cases lowFirst <;> simp only [unitBytes, if_true, Bool.false_eq_true, if_false, List.cons.injEq, and_true,
    ← UInt8.toNat_inj, UInt8.toNat_ofNat'] <;> omega

/-- Bytes taken in pairs are code units, each written with two bytes. -/
theorem units?_eq_some_iff {lowFirst : Bool} {bs : List UInt8} {us : List Nat} :
    units? lowFirst bs = some us ↔ bs = us.flatMap (unitBytes lowFirst) ∧ ∀ u ∈ us, u < 0x10000 := by
  fun_induction units? lowFirst bs generalizing us with
  | case1 => cases us with
    | nil => simp
    | cons u us => cases lowFirst <;> simp [unitBytes]
  | case2 b => cases us with
    | nil => simp
    | cons u us => cases lowFirst <;> simp [unitBytes]
  | case3 a b bs ih =>
    rw [Option.map_eq_some_iff]
    constructor
    · rintro ⟨vs, hvs, rfl⟩
      obtain ⟨hbytes, hlt⟩ := unitBytes_eq_iff.mp rfl
      obtain ⟨rfl, hrest⟩ := ih.mp hvs
      refine ⟨?_, List.forall_mem_cons.mpr ⟨hlt, hrest⟩⟩
      rw [List.flatMap_cons, hbytes]
      rfl
    · rintro ⟨hbs, hlt⟩
      cases us with
      | nil => cases hbs
      | cons u vs =>
        obtain ⟨hu, hvs⟩ := List.forall_mem_cons.mp hlt
        rw [List.flatMap_cons] at hbs
        obtain ⟨hpair, hrest⟩ := List.append_inj (show [a, b] ++ bs = _ from hbs)
          (length_unitBytes lowFirst u).symm
        exact ⟨vs, ih.mpr ⟨hrest, hvs⟩, by rw [unitBytes_eq_iff.mpr ⟨hpair.symm, hu⟩]⟩

section Reading

variable {u v : Nat} (us : List Nat)

theorem ofUnits?_single (h : u < 0xd800 ∨ 0xe000 ≤ u) : ofUnits? (u :: us) = (ofUnits? us).map (Char.ofNat u :: ·) := by
  cases us <;> simp only [ofUnits?, if_pos h]

theorem ofUnits?_pair (hu : 0xd800 ≤ u ∧ u < 0xdc00) (hv : 0xdc00 ≤ v ∧ v < 0xe000) :
    ofUnits? (u :: v :: us) =
      (ofUnits? us).map (Char.ofNat (0x10000 + (u - 0xd800) * 0x400 + (v - 0xdc00)) :: ·) := by
  rw [ofUnits?, if_neg (by omega), if_neg (by omega), if_pos hv]

/-- The units of a character are read as that character, whatever follows. -/
theorem ofUnits?_unitsOf_append (c : Char) : ofUnits? (unitsOf c ++ us) = (ofUnits? us).map (c :: ·) := by
  have hc := toNat_lt c
  unfold unitsOf
  split_ifs with hsmall
  · rw [List.singleton_append, ofUnits?_single us (by omega), Char.ofNat_toNat]
  · have hcode : 0x10000 + (0xd800 + (c.toNat - 0x10000) / 0x400 - 0xd800) * 0x400 +
        (0xdc00 + (c.toNat - 0x10000) % 0x400 - 0xdc00) = c.toNat := by omega
    rw [List.cons_append, List.singleton_append, ofUnits?_pair us (by omega) (by omega), hcode, Char.ofNat_toNat]

end Reading

theorem unitsOf_single {u : Nat} (h : u < 0xd800 ∨ 0xe000 ≤ u) (hlt : u < 0x10000) : unitsOf (Char.ofNat u) = [u] := by
  have hvalid : u.isValidChar := by
    unfold Nat.isValidChar
    omega
  rw [unitsOf, Text.toNat_ofNat hvalid, if_pos hlt]

theorem unitsOf_pair {u v : Nat} (hu : 0xd800 ≤ u ∧ u < 0xdc00) (hv : 0xdc00 ≤ v ∧ v < 0xe000) :
    unitsOf (Char.ofNat (0x10000 + (u - 0xd800) * 0x400 + (v - 0xdc00))) = [u, v] := by
  have hvalid : (0x10000 + (u - 0xd800) * 0x400 + (v - 0xdc00)).isValidChar := by
    unfold Nat.isValidChar
    omega
  rw [unitsOf, Text.toNat_ofNat hvalid, if_neg (by omega)]
  simp only [List.cons.injEq, and_true]
  omega

/-- Code units are a text if they are the units of its characters. -/
theorem ofUnits?_eq_some_iff {us : List Nat} {cs : List Char} (h : ∀ u ∈ us, u < 0x10000) :
    ofUnits? us = some cs ↔ us = cs.flatMap unitsOf := by
  constructor
  · intro hcs
    fun_induction ofUnits? us generalizing cs with
    | case1 =>
      cases hcs
      rfl
    | case2 u us hu ih =>
      obtain ⟨hlt, hrest⟩ := List.forall_mem_cons.mp h
      obtain ⟨ds, hds, rfl⟩ := Option.map_eq_some_iff.mp hcs
      rw [List.flatMap_cons, unitsOf_single hu hlt, ← ih hrest hds, List.singleton_append]
    | case5 u hu hhigh v us hv ih =>
      obtain ⟨-, hrest⟩ := List.forall_mem_cons.mp h
      obtain ⟨ds, hds, rfl⟩ := Option.map_eq_some_iff.mp hcs
      rw [List.flatMap_cons, unitsOf_pair (by omega) hv, ← ih (List.forall_mem_cons.mp hrest).2 hds]
      rfl
    | case3 | case4 | case6 => cases hcs
  · rintro rfl
    induction cs with
    | nil => rfl
    | cons c cs ih =>
      rw [List.flatMap_cons, ofUnits?_unitsOf_append, ih, Option.map_some]
      intro u hu
      exact h u (List.mem_append_right _ hu)

/-- The texts in UTF-16 with a known order are the written forms. -/
theorem orderedUtf16?_eq_some_iff {lowFirst : Bool} {bs : List UInt8} {cs : List Char} :
    orderedUtf16? lowFirst bs = some cs ↔ bs = utf16Bytes lowFirst cs := by
  have hunits : ∀ u ∈ cs.flatMap unitsOf, u < 0x10000 := by
    intro u hu
    obtain ⟨c, -, hc⟩ := List.mem_flatMap.mp hu
    exact unitsOf_lt hc
  rw [orderedUtf16?, Option.bind_eq_bind, Option.bind_eq_some_iff]
  constructor
  · rintro ⟨us, hus, hcs⟩
    obtain ⟨rfl, hlt⟩ := units?_eq_some_iff.mp hus
    rw [utf16Bytes, (ofUnits?_eq_some_iff hlt).mp hcs]
  · rintro rfl
    exact ⟨_, units?_eq_some_iff.mpr ⟨rfl, hunits⟩, (ofUnits?_eq_some_iff hunits).mpr rfl⟩

theorem orderedUtf16?_eq_none_iff {lowFirst : Bool} {bs : List UInt8} :
    orderedUtf16? lowFirst bs = none ↔ ∀ cs, bs ≠ utf16Bytes lowFirst cs := by
  rw [Option.eq_none_iff_forall_ne_some]
  exact forall_congr' fun cs => not_congr orderedUtf16?_eq_some_iff

theorem length_utf16Bytes (lowFirst : Bool) (cs : List Char) :
    (utf16Bytes lowFirst cs).length = 2 * (cs.flatMap unitsOf).length := by
  unfold utf16Bytes
  induction cs.flatMap unitsOf with
  | nil => rfl
  | cons u us ih =>
    rw [List.flatMap_cons, List.length_append, length_unitBytes, ih, List.length_cons]
    omega

theorem length_le_length_units (cs : List Char) : cs.length ≤ (cs.flatMap unitsOf).length := by
  induction cs with
  | nil => exact Nat.le_refl 0
  | cons c cs ih =>
    have hc : 0 < (unitsOf c).length := by
      unfold unitsOf
      split_ifs <;> exact Nat.zero_lt_succ _
    rw [List.flatMap_cons, List.length_append, List.length_cons]
    omega

/-- The mark in front of bytes in UTF-16: the character FEFF in the order of the bytes. -/
def utf16Mark (lowFirst : Bool) : List UInt8 := unitBytes lowFirst 0xfeff

theorem utf16?_mark_append (lowFirst : Bool) (bs : List UInt8) :
    utf16? (utf16Mark lowFirst ++ bs) = orderedUtf16? lowFirst bs := by
  cases lowFirst <;> rfl

theorem utf16?_of_not_marked {bs : List UInt8} (h : ∀ lowFirst, ¬ utf16Mark lowFirst <+: bs) :
    utf16? bs = orderedUtf16? true bs := by
  unfold utf16?
  split
  next bs => exact absurd ⟨bs, rfl⟩ (h true)
  next bs => exact absurd ⟨bs, rfl⟩ (h false)
  next => rfl

/-- No text in UTF-8 begins with a mark of UTF-16. -/
theorem utf8?_utf16Mark_append (lowFirst : Bool) (bs : List UInt8) : utf8? (utf16Mark lowFirst ++ bs) = none := by
  have hmem : (0xff : UInt8) ∈ utf16Mark lowFirst := by cases lowFirst <;> decide
  exact utf8?_eq_none_of_mem (List.mem_append_left bs hmem) (by decide)

end Utf16

end CommentGrade.Decoding
