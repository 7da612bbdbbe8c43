import CommentGrade.Json.Reader
import CommentGrade.Json.Writer
import Mathlib.Tactic.IntervalCases
import Mathlib.Tactic.SplitIfs

/-!
# Strings that are read back

A character is written as itself or as an escape. The reader gives one code unit for each, and units that are code points
of characters are no surrogates, so that they are joined to the characters that were written.
-/
namespace CommentGrade.Json

variable {cs rest : List Char}

theorem toList_string (s : String) : (string s).toList = '"' :: (s.toList.flatMap escapeChar ++ ['"']) := by
  simp [string]

/-- The escape of a control has four digits, which are read as its code. -/
theorem hex_control {n : Nat} (h : n < 0x20) : ∃ a b c d, Text.hex 4 n = [a, b, c, d] ∧
    [a, b, c, d].all (Number.isDigitOf 16) = true ∧ Number.valueOf 16 [a, b, c, d] = n := by
  interval_cases n <;> exact ⟨_, _, _, _, rfl, by decide, by decide⟩

theorem stringUnits_escape {a b c d : Char} (h : [a, b, c, d].all (Number.isDigitOf 16) = true) :
    stringUnits ('\\' :: 'u' :: a :: b :: c :: d :: cs) =
      (stringUnits cs).map fun r => (Number.valueOf 16 [a, b, c, d] :: r.1, r.2) := by
  rw [stringUnits, if_pos h]

theorem stringUnits_plain {c : Char} (hquote : c ≠ '"') (hslash : c ≠ '\\') (hcontrol : ¬c.toNat < 0x20) :
    stringUnits (c :: cs) = (stringUnits cs).map fun r => (c.toNat :: r.1, r.2) := by
  rw [stringUnits.eq_def]
  split <;> simp_all

theorem stringUnits_escapeChar (c : Char) (cs : List Char) :
    stringUnits (escapeChar c ++ cs) = (stringUnits cs).map fun r => (c.toNat :: r.1, r.2) := by
  unfold escapeChar
  split_ifs with hquote hslash hline hreturn htab hback hfeed hcontrol
  · subst hquote; rfl
  · subst hslash; rfl
  · subst hline; rfl
  · subst hreturn; rfl
  · subst htab; rfl
  · subst hback; rfl
  · subst hfeed; rfl
  · obtain ⟨x, y, z, w, hhex, hdigits, hvalue⟩ := hex_control hcontrol
    rw [hhex]
    refine (stringUnits_escape hdigits).trans ?_
    rw [hvalue]
    rfl
  · exact stringUnits_plain hquote hslash hcontrol

theorem stringUnits_flatMap (cs rest : List Char) :
    stringUnits (cs.flatMap escapeChar ++ '"' :: rest) = some (cs.map Char.toNat, rest) := by
  induction cs with
  | nil => rfl
  | cons c cs ih =>
    rw [List.flatMap_cons, List.append_assoc, stringUnits_escapeChar, ih]
    rfl

theorem joinUnits_map_toNat (cs : List Char) : joinUnits (cs.map Char.toNat) = cs := by
  induction cs with
  | nil => rfl
  | cons c cs ih =>
    cases cs with
    | nil => rw [List.map_singleton, joinUnits, Char.ofNat_toNat]
    | cons d cs =>
      have hvalid : ¬(0xd800 ≤ c.toNat ∧ c.toNat < 0xdc00 ∧ 0xdc00 ≤ d.toNat ∧ d.toNat < 0xe000) := by
        rintro ⟨hlow, hhigh, -⟩
        rcases c.valid with h | ⟨h, -⟩
        · exact absurd h (Nat.not_lt.mpr hlow)
        · exact absurd (Nat.lt_trans h hhigh) (by decide)
      rw [List.map_cons, List.map_cons, joinUnits, if_neg hvalid, Char.ofNat_toNat]
      exact congrArg (c :: ·) ih

/-- A string is read back, behind its opening quote. -/
theorem readString_flatMap (s : String) (rest : List Char) :
    readString (s.toList.flatMap escapeChar ++ '"' :: rest) = .ok (s, rest) := by
  rw [readString, stringUnits_flatMap]
  simp only [joinUnits_map_toNat, String.ofList_toList]

end CommentGrade.Json
