import CommentGrade.Proofs.Decoding.Unicode

/-!
# Well-formed UTF-8

Which bytes are UTF-8 is a matter of ranges: each row of the table of well-formed sequences says between which bounds the
bytes of a character stand, so that no character has a second form, no surrogate has one, and nothing ends within a
character. The bytes that are made of such rows are exactly the forms of texts.
-/
namespace CommentGrade.Decoding

/-- A byte between two bounds, both included. -/
def Within (low high : Nat) (b : UInt8) : Prop := low ≤ b.toNat ∧ b.toNat ≤ high

/-- A byte behind the first one of a character. -/
abbrev Trails : UInt8 → Prop := Within 0x80 0xbf

/-- The bytes of one character, by the range of the first of them. -/
inductive CharacterForm : List UInt8 → Prop
  | ascii {a : UInt8} : Within 0x00 0x7f a → CharacterForm [a]
  | two {a b : UInt8} : Within 0xc2 0xdf a → Trails b → CharacterForm [a, b]
  | threeLow {a b c : UInt8} : Within 0xe0 0xe0 a → Within 0xa0 0xbf b → Trails c → CharacterForm [a, b, c]
  | three {a b c : UInt8} : Within 0xe1 0xec a → Trails b → Trails c → CharacterForm [a, b, c]
  | threeBelowSurrogates {a b c : UInt8} : Within 0xed 0xed a → Within 0x80 0x9f b → Trails c →
      CharacterForm [a, b, c]
  | threeAboveSurrogates {a b c : UInt8} : Within 0xee 0xef a → Trails b → Trails c → CharacterForm [a, b, c]
  | fourLow {a b c d : UInt8} : Within 0xf0 0xf0 a → Within 0x90 0xbf b → Trails c → Trails d →
      CharacterForm [a, b, c, d]
  | four {a b c d : UInt8} : Within 0xf1 0xf3 a → Trails b → Trails c → Trails d → CharacterForm [a, b, c, d]
  | fourHigh {a b c d : UInt8} : Within 0xf4 0xf4 a → Within 0x80 0x8f b → Trails c → Trails d →
      CharacterForm [a, b, c, d]

/-- Bytes that are forms of characters, one behind the other. -/
inductive WellFormed : List UInt8 → Prop
  | nil : WellFormed []
  | cons {form bs : List UInt8} : CharacterForm form → WellFormed bs → WellFormed (form ++ bs)

section Rows

variable {a b c d : UInt8}

theorem utf8EncodeChar_ofNat {n : Nat} (h : n.isValidChar) : String.utf8EncodeChar (Char.ofNat n) =
    if n ≤ 0x7f then [UInt8.ofNat n]
    else if n ≤ 0x7ff then [UInt8.ofNat (n / 64 % 32 + 192), UInt8.ofNat (n % 64 + 128)]
    else if n ≤ 0xffff then
      [UInt8.ofNat (n / 4096 % 16 + 224), UInt8.ofNat (n / 64 % 64 + 128), UInt8.ofNat (n % 64 + 128)]
    else
      [UInt8.ofNat (n / 262144 % 8 + 240), UInt8.ofNat (n / 4096 % 64 + 128), UInt8.ofNat (n / 64 % 64 + 128),
        UInt8.ofNat (n % 64 + 128)] := by
  have hn : (Char.ofNat n).val.toNat = n := Text.toNat_ofNat h
  rw [String.utf8EncodeChar, hn]

theorem ofNat_eq_iff {n : Nat} (h : n < 256) : UInt8.ofNat n = b ↔ n = b.toNat := by
  rw [← UInt8.toNat_inj, UInt8.toNat_ofNat', Nat.mod_eq_of_lt h]

theorem exists_one (ha : Within 0x00 0x7f a) : ∃ ch, String.utf8EncodeChar ch = [a] := by
  obtain ⟨-, hhigh⟩ := ha
  have hvalid : a.toNat.isValidChar := .inl (by omega)
  refine ⟨Char.ofNat a.toNat, ?_⟩
  rw [utf8EncodeChar_ofNat hvalid, if_pos hhigh, UInt8.ofNat_toNat]

theorem exists_two (ha : Within 0xc2 0xdf a) (hb : Trails b) : ∃ ch, String.utf8EncodeChar ch = [a, b] := by
  unfold Trails Within at *
  have hvalid : ((a.toNat - 0xc0) * 64 + (b.toNat - 0x80)).isValidChar := .inl (by omega)
  refine ⟨Char.ofNat _, (utf8EncodeChar_ofNat hvalid).trans ?_⟩
  rw [if_neg (by omega), if_pos (by omega)]
  simp only [List.cons.injEq, and_true]
  constructor <;> rw [ofNat_eq_iff (by omega)] <;> omega

theorem exists_three (ha : Within 0xe0 0xef a) (hb : Trails b) (hc : Trails c)
    (hlong : a.toNat = 0xe0 → 0xa0 ≤ b.toNat) (hsurrogate : a.toNat = 0xed → b.toNat < 0xa0) :
    ∃ ch, String.utf8EncodeChar ch = [a, b, c] := by
  unfold Trails Within at *
  have hvalid : ((a.toNat - 0xe0) * 4096 + (b.toNat - 0x80) * 64 + (c.toNat - 0x80)).isValidChar := by
    unfold Nat.isValidChar
    omega
  refine ⟨Char.ofNat _, (utf8EncodeChar_ofNat hvalid).trans ?_⟩
  rw [if_neg (by omega), if_neg (by omega), if_pos (by omega)]
  simp only [List.cons.injEq, and_true]
  refine ⟨?_, ?_, ?_⟩ <;> rw [ofNat_eq_iff (by omega)] <;> omega

theorem exists_four (ha : Within 0xf0 0xf4 a) (hb : Trails b) (hc : Trails c) (hd : Trails d)
    (hlong : a.toNat = 0xf0 → 0x90 ≤ b.toNat) (hlast : a.toNat = 0xf4 → b.toNat < 0x90) :
    ∃ ch, String.utf8EncodeChar ch = [a, b, c, d] := by
  unfold Trails Within at *
  have hvalid : ((a.toNat - 0xf0) * 262144 + (b.toNat - 0x80) * 4096 + (c.toNat - 0x80) * 64 +
      (d.toNat - 0x80)).isValidChar := by
    unfold Nat.isValidChar
    omega
  refine ⟨Char.ofNat _, (utf8EncodeChar_ofNat hvalid).trans ?_⟩
  rw [if_neg (by omega), if_neg (by omega), if_neg (by omega)]
  simp only [List.cons.injEq, and_true]
  refine ⟨?_, ?_, ?_, ?_⟩ <;> rw [ofNat_eq_iff (by omega)] <;> omega

end Rows

theorem CharacterForm.exists_char {form : List UInt8} (h : CharacterForm form) :
    ∃ ch, String.utf8EncodeChar ch = form := by
  cases h with
  | ascii ha => exact exists_one ha
  | two ha hb => exact exists_two ha hb
  | threeLow ha hb hc | three ha hb hc | threeBelowSurrogates ha hb hc | threeAboveSurrogates ha hb hc =>
    unfold Trails Within at *
    exact exists_three ⟨by omega, by omega⟩ ⟨by omega, by omega⟩ hc (by omega) (by omega)
  | fourLow ha hb hc hd | four ha hb hc hd | fourHigh ha hb hc hd =>
    unfold Trails Within at *
    exact exists_four ⟨by omega, by omega⟩ ⟨by omega, by omega⟩ hc hd (by omega) (by omega)

theorem within_ofNat {low high n : Nat} (hlow : low ≤ n) (hhigh : n ≤ high) (hbyte : high < 256) :
    Within low high (UInt8.ofNat n) := by
  rw [Within, UInt8.toNat_ofNat', Nat.mod_eq_of_lt (by omega)]
  exact ⟨hlow, hhigh⟩

theorem trails_ofNat (n : Nat) : Trails (UInt8.ofNat (n % 64 + 128)) :=
  within_ofNat (by omega) (by omega) (by decide)

theorem characterForm_utf8EncodeChar (ch : Char) : CharacterForm (String.utf8EncodeChar ch) := by
  have hvalid := toNat_lt ch
  have hn : ch.val.toNat = ch.toNat := rfl
  simp only [String.utf8EncodeChar, hn]
  generalize ch.toNat = n at hvalid
  split_ifs with hone htwo hthree
  · exact .ascii (within_ofNat (Nat.zero_le n) hone (by decide))
  · exact .two (within_ofNat (by omega) (by omega) (by decide)) (trails_ofNat n)
  · have hrows : n < 0x1000 ∨ (0x1000 ≤ n ∧ n < 0xd000) ∨ (0xd000 ≤ n ∧ n < 0xd800) ∨ 0xe000 ≤ n := by omega
    rcases hrows with h | h | h | h
    · exact .threeLow (within_ofNat (by omega) (by omega) (by decide)) (within_ofNat (by omega) (by omega) (by decide))
        (trails_ofNat n)
    · exact .three (within_ofNat (by omega) (by omega) (by decide)) (trails_ofNat _) (trails_ofNat n)
    · exact .threeBelowSurrogates (within_ofNat (by omega) (by omega) (by decide))
        (within_ofNat (by omega) (by omega) (by decide)) (trails_ofNat n)
    · exact .threeAboveSurrogates (within_ofNat (by omega) (by omega) (by decide)) (trails_ofNat _) (trails_ofNat n)
  · have hrows : n < 0x40000 ∨ (0x40000 ≤ n ∧ n < 0x100000) ∨ 0x100000 ≤ n := by omega
    rcases hrows with h | h | h
    · exact .fourLow (within_ofNat (by omega) (by omega) (by decide)) (within_ofNat (by omega) (by omega) (by decide))
        (trails_ofNat _) (trails_ofNat n)
    · exact .four (within_ofNat (by omega) (by omega) (by decide)) (trails_ofNat _) (trails_ofNat _) (trails_ofNat n)
    · exact .fourHigh (within_ofNat (by omega) (by omega) (by decide)) (within_ofNat (by omega) (by omega) (by decide))
        (trails_ofNat _) (trails_ofNat n)

/-- The forms of texts are the well-formed bytes. -/
theorem wellFormed_iff {bs : List UInt8} : WellFormed bs ↔ ∃ cs, utf8Bytes cs = bs := by
  constructor
  · intro h
    induction h with
    | nil => exact ⟨[], rfl⟩
    | cons hform _ ih =>
      obtain ⟨ch, rfl⟩ := hform.exists_char
      obtain ⟨cs, rfl⟩ := ih
      exact ⟨ch :: cs, utf8Bytes_cons ch cs⟩
  · rintro ⟨cs, rfl⟩
    induction cs with
    | nil => exact .nil
    | cons ch cs ih =>
      rw [utf8Bytes_cons]
      exact .cons (characterForm_utf8EncodeChar ch) ih

end CommentGrade.Decoding
