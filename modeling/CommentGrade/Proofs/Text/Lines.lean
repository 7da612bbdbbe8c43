import CommentGrade.Proofs.Pattern.Place
import CommentGrade.Proofs.Text.Caseless
import CommentGrade.Text.Position

/-!
# Lines of a text

The number of a line counts the line feeds before an offset: it grows with the offset and stays the same over
characters that are none. Only the start of a text has the position of its start.
-/
namespace CommentGrade.Text

/-- Whether a character is a blank or a tabulator. -/
def isGap (c : Char) : Bool := c == ' ' || c == '\t'

/-- Whether a character does not end a line. -/
def isInLine (c : Char) : Bool := c != '\r' && c != '\n'

theorem isInLine_eq_false_iff {c : Char} : isInLine c = false ↔ c = '\r' ∨ c = '\n' := by
  rw [isInLine, Bool.and_eq_false_iff, bne_eq_false_iff_eq, bne_eq_false_iff_eq]

theorem isGap_of_not_isInLine {c : Char} (h : isInLine c = false) : isGap c = false ∧ c.toNat < 0x41 := by
  rcases isInLine_eq_false_iff.mp h with rfl | rfl <;> exact ⟨by decide, by decide⟩

theorem isBlank_of_isGap {c : Char} (h : isGap c = true) : isBlank c = true := by
  rw [isGap, Bool.or_eq_true, beq_iff_eq, beq_iff_eq] at h
  rcases h with rfl | rfl <;> decide

theorem isBlank_eq_false_of_mem {w : List Char} (h : w.any isBlank = false) : ∀ c ∈ w, isBlank c = false := by
  intro c hc
  rw [List.any_eq_false] at h
  exact eq_false_of_ne_true (h c hc)

/-- A text is one line, or a line and a text behind a line feed. -/
theorem lines_induction {P : List Char → Prop} (last : ∀ a, '\n' ∉ a → P a)
    (line : ∀ a b, '\n' ∉ a → P b → P (a ++ '\n' :: b)) (cs : List Char) : P cs := by
  induction hn : cs.length using Nat.strongRecOn generalizing cs with
  | ind n ih =>
    by_cases hfeed : '\n' ∈ cs
    · obtain ⟨a, b, rfl, ha⟩ := List.eq_append_cons_of_mem hfeed
      rw [List.length_append, List.length_cons] at hn
      exact line a b ha (ih b.length (by omega) b rfl)
    · exact last cs hfeed

theorem not_of_mem_splitOnP {p : Char → Bool} {cs w : List Char} (h : w ∈ cs.splitOnP p) : ∀ c ∈ w, p c = false := by
  induction cs generalizing w with
  | nil =>
    obtain rfl : w = [] := by simpa using h
    nofun
  | cons x cs ih =>
    rw [List.splitOnP_cons_eq_if_modifyHead] at h
    split_ifs at h with hx
    · rcases List.mem_cons.mp h with rfl | h
      · nofun
      · exact ih h
    · obtain ⟨v, vs, hsplit⟩ := List.exists_cons_of_ne_nil (List.splitOnP_ne_nil p cs)
      rw [hsplit, List.modifyHead_cons] at h
      rcases List.mem_cons.mp h with rfl | h
      · exact List.forall_mem_cons.mpr ⟨Bool.eq_false_iff.mpr hx, ih (hsplit ▸ List.mem_cons_self)⟩
      · exact ih (hsplit ▸ List.mem_cons_of_mem v h)

variable {cs : List Char} {i j : Nat}

theorem lineAt_mono (h : i ≤ j) : lineAt cs i ≤ lineAt cs j := by
  have hsub : (cs.take i).Sublist (cs.take j) := by
    rw [← Nat.min_eq_left h, ← List.take_take]
    exact List.take_sublist i (cs.take j)
  exact hsub.count_le '\n'

theorem lineAt_le_count (cs : List Char) (i : Nat) : lineAt cs i ≤ cs.count '\n' :=
  (List.take_sublist i cs).count_le '\n'

theorem lineAt_succ {c : Char} (hc : cs[i]? = some c) :
    lineAt cs (i + 1) = lineAt cs i + if c = '\n' then 1 else 0 := by
  simp [lineAt, List.take_add_one, hc, List.count_singleton]

theorem lineAt_add_of_occursAt {caseless : Bool} {sets : List CharSet}
    (hsets : ∀ s ∈ sets, s.contains caseless '\n' = false)
    (h : occursAt caseless sets cs i = true) : lineAt cs (i + sets.length) = lineAt cs i := by
  induction sets generalizing i with
  | nil => rfl
  | cons s sets ih =>
    simp only [occursAt_cons, Bool.and_eq_true, Option.any_eq_true] at h
    obtain ⟨⟨c, hc, hs⟩, htail⟩ := h
    have hne : c ≠ '\n' := by
      rintro rfl
      rw [hsets s List.mem_cons_self] at hs
      exact Bool.false_ne_true hs
    calc
      lineAt cs (i + (s :: sets).length) = lineAt cs (i + 1 + sets.length) := by
        rw [List.length_cons, Nat.add_right_comm, Nat.add_assoc]
      _ = lineAt cs (i + 1) := ih (fun t ht => hsets t (List.mem_cons_of_mem s ht)) htail
      _ = lineAt cs i := by rw [lineAt_succ hc, if_neg hne, Nat.add_zero]

/-- The sets of a text without a character before the capitals do not contain it, whatever the case. -/
theorem contains_exactly_eq_false {w : List Char} {x : Char} (hx : x.toNat < 0x41) (hw : x ∉ w) :
    ∀ s ∈ exactly w, s.contains true x = false := by
  intro s hs
  obtain ⟨c, hc, rfl⟩ := List.mem_map.mp hs
  change caselessEq c x = false
  rw [caselessEq_comm, ← Bool.not_eq_true, caselessEq_iff_of_lt hx]
  rintro rfl
  exact hw hc

theorem lineAt_skip {p : Char → Bool} (hp : p '\n' = false) (cs : List Char) (i : Nat) :
    lineAt cs (skip p cs i) = lineAt cs i := by
  have hnone : ((cs.drop i).takeWhile p).count '\n' = 0 := by
    rw [List.count_eq_zero]
    intro hmem
    have htrue := List.all_eq_true.mp List.all_takeWhile _ hmem
    rw [hp] at htrue
    exact Bool.false_ne_true htrue
  calc
    lineAt cs (skip p cs i) = lineAt cs (i + (skip p cs i - i)) := by
      rw [Nat.add_sub_cancel' (le_skip p cs i)]
    _ = lineAt cs i + ((cs.drop i).takeWhile p).count '\n' := by
      rw [lineAt, List.take_add, List.count_append, take_drop_skip]
      rfl
    _ = lineAt cs i := by rw [hnone, Nat.add_zero]

theorem lastFeed?_lt {k : Nat} (h : lastFeed? cs i = some k) : k < i := by
  cases i with
  | zero => cases h
  | succ i =>
    obtain ⟨m, -, rfl⟩ := Option.map_eq_some_iff.mp h
    omega

theorem lastFeed?_succ {c : Char} (hc : cs[i]? = some c) :
    lastFeed? cs (i + 1) = if c = '\n' then some i else lastFeed? cs i := by
  have hback : (cs.take (i + 1)).reverse = c :: (cs.take i).reverse := by
    rw [List.take_add_one, hc, Option.toList_some, List.reverse_append, List.reverse_singleton,
      List.singleton_append]
  rw [lastFeed?, hback, List.idxOf?_cons]
  by_cases hfeed : c = '\n'
  · simp [hfeed]
  · have hshift : (fun k => i + 1 - 1 - (k + 1)) = fun k => i - 1 - k := by
      funext k
      omega
    rw [if_neg (by simpa using hfeed), if_neg hfeed, Option.map_map, lastFeed?]
    exact congrArg (Option.map · _) hshift

theorem columnAt_succ {c : Char} (hc : cs[i]? = some c) :
    columnAt cs (i + 1) = if c = '\n' then 0 else columnAt cs i + 1 := by
  rw [columnAt, lastFeed?_succ hc]
  by_cases hfeed : c = '\n'
  · simp [hfeed]
  · rw [if_neg hfeed, if_neg hfeed, columnAt]
    cases hlast : lastFeed? cs i with
    | none => rfl
    | some k => exact Nat.succ_sub (lastFeed?_lt hlast)

/-- Every line up to that of an offset begins at or before it. -/
theorem exists_lineStart {l : Nat} (hj : j ≤ cs.length) (hl : l ≤ lineAt cs j) :
    ∃ i ≤ j, lineAt cs i = l ∧ columnAt cs i = 0 := by
  induction j with
  | zero => exact ⟨0, Nat.le_refl 0, (Nat.le_zero.mp hl).symm, rfl⟩
  | succ j ih =>
    by_cases hbefore : l ≤ lineAt cs j
    · obtain ⟨i, hi, hline⟩ := ih (Nat.le_of_succ_le hj) hbefore
      exact ⟨i, Nat.le_succ_of_le hi, hline⟩
    · have hchar : cs[j]? = some cs[j] := List.getElem?_eq_getElem hj
      have hline := lineAt_succ hchar
      have hfeed : cs[j] = '\n' := by
        by_contra hne
        rw [if_neg hne] at hline
        omega
      rw [if_pos hfeed] at hline
      refine ⟨j + 1, Nat.le_refl _, by omega, ?_⟩
      rw [columnAt_succ hchar, if_pos hfeed]

theorem positionAt_of_le (hi : i ≤ cs.length) : positionAt cs i = ⟨lineAt cs i, columnAt cs i⟩ := by
  cases i with
  | zero => rfl
  | succ i =>
    have hpos : ¬ ((i + 1 : Nat) : Int) ≤ 0 := by omega
    rw [positionAt, if_neg hpos, Int.toNat_natCast, Nat.min_eq_left hi]

theorem positionAt_line (hi : i ≤ cs.length) : (positionAt cs i).line = lineAt cs i := by
  rw [positionAt_of_le hi]

/-- Only the start of a text is on its first line and in its first column. -/
theorem positionAt_eq_origin_iff (hi : i ≤ cs.length) : positionAt cs i = ⟨0, 0⟩ ↔ i = 0 := by
  rw [positionAt_of_le hi]
  constructor
  · intro h
    obtain ⟨hline, hcolumn⟩ := Position.mk.inj h
    cases i with
    | zero => rfl
    | succ k =>
      have hk : cs[k]? = some cs[k] := List.getElem?_eq_getElem hi
      rw [lineAt_succ hk] at hline
      have hne : cs[k] ≠ '\n' := by
        intro hc
        rw [if_pos hc] at hline
        omega
      rw [columnAt_succ hk, if_neg hne] at hcolumn
      omega
  · rintro rfl
    rfl

end CommentGrade.Text
