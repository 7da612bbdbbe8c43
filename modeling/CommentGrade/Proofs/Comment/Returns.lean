import CommentGrade.Proofs.Comment.LineEnds
import CommentGrade.Proofs.Text.Occurrences
import Mathlib.Data.List.Induction

/-!
# Places behind carriage returns

Where a carriage return comes before each line feed, the character of an offset stands further on by the number of its
line, and where it was a line feed, the carriage return stands there. All that is asked of a text about the surroundings
of a place has the same answer as for the offset, and a word without white space occurs at the places of its occurrences
only.
-/
namespace CommentGrade.Comment

open Text

/-- Where the character of an offset stands if a carriage return comes before each line feed. -/
def place (cs : List Char) (i : Nat) : Nat := i + lineAt cs i

section Places

variable {cs w : List Char} {i j : Nat}

theorem length_withReturns (cs : List Char) : (withReturns cs).length = cs.length + cs.count '\n' := by
  induction cs with
  | nil => rfl
  | cons c cs ih =>
    rw [withReturns, List.flatMap_cons, List.length_append, ← withReturns, ih]
    by_cases hc : c = '\n'
    · simp [hc]
      omega
    · simp [hc]
      omega

theorem count_withReturns (cs : List Char) : (withReturns cs).count '\n' = cs.count '\n' := by
  induction cs with
  | nil => rfl
  | cons c cs ih =>
    rw [withReturns, List.flatMap_cons, List.count_append, ← withReturns, ih]
    by_cases hc : c = '\n'
    · simp [hc]
      omega
    · simp [hc]

theorem getLast?_withReturns (cs : List Char) : (withReturns cs).getLast? = cs.getLast? := by
  induction cs using List.reverseRecOn with
  | nil => rfl
  | append_singleton cs c ih =>
    rw [withReturns_append]
    by_cases hc : c = '\n'
    · simp [withReturns, hc]
    · simp [withReturns, hc]

theorem length_withReturns_take (hi : i ≤ cs.length) : (withReturns (cs.take i)).length = place cs i := by
  rw [length_withReturns, List.length_take_of_le hi]
  rfl

theorem length_withReturns_le (hi : cs.length ≤ i) : (withReturns cs).length ≤ place cs i := by
  rw [length_withReturns, place, lineAt, List.take_of_length_le hi]
  omega

theorem take_place (cs : List Char) (i : Nat) : (withReturns cs).take (place cs i) = withReturns (cs.take i) := by
  rcases Nat.le_total i cs.length with hi | hi
  · calc
      (withReturns cs).take (place cs i) = (withReturns (cs.take i) ++ withReturns (cs.drop i)).take (place cs i) := by
        rw [← withReturns_append, List.take_append_drop]
      _ = withReturns (cs.take i) := List.take_left' (length_withReturns_take hi)
  · rw [List.take_of_length_le (length_withReturns_le hi), List.take_of_length_le hi]

theorem drop_place (cs : List Char) (i : Nat) : (withReturns cs).drop (place cs i) = withReturns (cs.drop i) := by
  rcases Nat.le_total i cs.length with hi | hi
  · calc
      (withReturns cs).drop (place cs i) = (withReturns (cs.take i) ++ withReturns (cs.drop i)).drop (place cs i) := by
        rw [← withReturns_append, List.take_append_drop]
      _ = withReturns (cs.drop i) := List.drop_left' (length_withReturns_take hi)
  · rw [List.drop_of_length_le (length_withReturns_le hi), List.drop_of_length_le hi]
    rfl

theorem getElem?_place (cs : List Char) (i : Nat) :
    (withReturns cs)[place cs i]? = cs[i]?.map fun c => if c = '\n' then '\r' else c := by
  rw [← List.head?_drop, drop_place, ← List.head?_drop]
  cases cs.drop i with
  | nil => rfl
  | cons c rest =>
    by_cases hc : c = '\n'
    · simp [withReturns, hc]
    · simp [withReturns, hc]

theorem getElem?_place_add_one (h : cs[i]? = some '\n') : (withReturns cs)[place cs i + 1]? = some '\n' := by
  rw [← List.getElem?_drop, drop_place]
  obtain ⟨rest, hrest⟩ : ∃ rest, cs.drop i = '\n' :: rest := by
    rw [← List.head?_drop] at h
    exact List.head?_eq_some_iff.mp h
  rw [hrest]
  rfl

theorem place_succ_of_feed (h : cs[i]? = some '\n') : place cs (i + 1) = place cs i + 2 := by
  rw [place, place, lineAt_succ h, if_pos rfl]
  omega

theorem place_succ_of_ne (h : cs[i]? ≠ some '\n') : place cs (i + 1) = place cs i + 1 := by
  have hline : lineAt cs (i + 1) = lineAt cs i := by
    cases hc : cs[i]? with
    | none => simp [lineAt, List.take_add_one, hc]
    | some c =>
      have hne : c ≠ '\n' := by
        rintro rfl
        exact h hc
      rw [lineAt_succ hc, if_neg hne, Nat.add_zero]
  rw [place, place, hline]
  omega

theorem place_lt_succ (cs : List Char) (i : Nat) : place cs i < place cs (i + 1) := by
  have hline : lineAt cs i ≤ lineAt cs (i + 1) := lineAt_mono (Nat.le_succ i)
  simp only [place]
  omega

theorem place_strictMono (cs : List Char) : StrictMono (place cs) := strictMono_nat_of_lt_succ (place_lt_succ cs)

/-- There is something between a carriage return and a later place, and behind another character if there is for the
offsets. -/
theorem place_add_one_lt_iff (h : i + 1 ≤ j) :
    place cs i + 1 < place cs j ↔ i + 1 < j ∨ lineAt cs i < lineAt cs (i + 1) := by
  have hle : place cs (i + 1) ≤ place cs j := (place_strictMono cs).monotone h
  by_cases hfeed : cs[i]? = some '\n'
  · have hplace := place_succ_of_feed hfeed
    have hline := lineAt_succ hfeed
    rw [if_pos rfl] at hline
    exact iff_of_true (by omega) (.inr (by omega))
  · have hplace := place_succ_of_ne hfeed
    have hline : lineAt cs (i + 1) = lineAt cs i := by
      simp only [place] at hplace
      omega
    rw [← hplace, (place_strictMono cs).lt_iff_lt, hline]
    simp

theorem eq_of_between (hlt : place cs i < j) (hj : j < place cs (i + 1)) : cs[i]? = some '\n' ∧ j = place cs i + 1 := by
  by_cases h : cs[i]? = some '\n'
  · rw [place_succ_of_feed h] at hj
    exact ⟨h, by omega⟩
  · rw [place_succ_of_ne h] at hj
    omega

theorem place_le_length_iff : place cs i ≤ (withReturns cs).length ↔ i ≤ cs.length := by
  have hlength : (withReturns cs).length = place cs cs.length := by
    rw [length_withReturns, place, lineAt, List.take_length]
  rw [hlength, (place_strictMono cs).le_iff_le]

/-- Each offset is a place, or that of a line feed behind its carriage return. -/
theorem exists_place (cs : List Char) (j : Nat) : ∃ i, j = place cs i ∨ cs[i]? = some '\n' ∧ j = place cs i + 1 := by
  induction j with
  | zero => exact ⟨0, .inl rfl⟩
  | succ j ih =>
    obtain ⟨i, rfl | ⟨hfeed, rfl⟩⟩ := ih
    · by_cases hfeed : cs[i]? = some '\n'
      · exact ⟨i, .inr ⟨hfeed, rfl⟩⟩
      · exact ⟨i + 1, .inl (place_succ_of_ne hfeed).symm⟩
    · exact ⟨i + 1, .inl (place_succ_of_feed hfeed).symm⟩

theorem lineAt_place (cs : List Char) (i : Nat) : lineAt (withReturns cs) (place cs i) = lineAt cs i := by
  rw [lineAt, take_place, count_withReturns, lineAt]

theorem isLineStart_place (cs : List Char) (i : Nat) :
    isLineStart (withReturns cs) (place cs i) = isLineStart cs i := by
  rw [isLineStart, take_place, getLast?_withReturns, isLineStart]

theorem isLineStart_place_add_one (h : cs[i]? = some '\n') :
    isLineStart (withReturns cs) (place cs i + 1) = false := by
  have hreturn : (withReturns cs)[place cs i]? = some '\r' := by rw [getElem?_place, h]; rfl
  rw [isLineStart_succ hreturn]
  rfl

theorem any_place {p : Char → Bool} (hp : p '\r' = p '\n') (cs : List Char) (i : Nat) :
    (withReturns cs)[place cs i]?.any p = cs[i]?.any p := by
  rw [getElem?_place]
  cases cs[i]? with
  | none => rfl
  | some c =>
    by_cases hc : c = '\n'
    · simp [hc, hp]
    · simp [hc]

end Places

section Words

variable {cs w : List Char} (hw : ∀ c ∈ w, isBlank c = false) {i j : Nat}
include hw

/-- The places of an occurrence of a word are those of consecutive offsets. -/
theorem place_add_of_occursAt (h : occursAt false (exactly w) cs i = true) :
    place cs (i + w.length) = place cs i + w.length := by
  have hsets : ∀ s ∈ exactly w, s.contains false '\n' = false := by
    intro s hs
    obtain ⟨c, hc, rfl⟩ := List.mem_map.mp hs
    change (c == '\n') = false
    rw [beq_eq_false_iff_ne]
    rintro rfl
    exact absurd (hw _ hc) (by decide)
  have hline := lineAt_add_of_occursAt hsets h
  rw [exactly_length] at hline
  rw [place, place, hline]
  omega

theorem occursAt_place (cs : List Char) (i : Nat) :
    occursAt false (exactly w) (withReturns cs) (place cs i) = occursAt false (exactly w) cs i := by
  induction w generalizing i with
  | nil => rfl
  | cons c w ih =>
    rw [List.forall_mem_cons] at hw
    have hreturn : c ≠ '\r' := by
      rintro rfl
      exact absurd hw.1 (by decide)
    have hfeed : c ≠ '\n' := by
      rintro rfl
      exact absurd hw.1 (by decide)
    have hclass : (c == '\r') = (c == '\n') := by simp [hreturn, hfeed]
    have hcons : exactly (c :: w) = .char c :: exactly w := rfl
    have hfirst : (withReturns cs)[place cs i]?.any (c == ·) = cs[i]?.any (c == ·) := any_place hclass cs i
    rw [hcons, occursAt_cons, occursAt_cons]
    change ((withReturns cs)[place cs i]?.any (c == ·) && _) = (cs[i]?.any (c == ·) && _)
    rw [hfirst]
    by_cases hc : cs[i]? = some '\n'
    · simp [hc, beq_false_of_ne hfeed]
    · rw [← place_succ_of_ne hc, ih hw.2]

/-- A word occurs at the places of its occurrences and nowhere else. -/
theorem occursAt_withReturns_iff (hne : w ≠ []) : occursAt false (exactly w) (withReturns cs) j = true ↔
    ∃ i, j = place cs i ∧ occursAt false (exactly w) cs i = true := by
  constructor
  · intro h
    obtain ⟨i, rfl | ⟨hfeed, rfl⟩⟩ := exists_place cs j
    · exact ⟨i, rfl, (occursAt_place hw cs i) ▸ h⟩
    · have hblank : (withReturns cs)[place cs i + 1]?.any isBlank = true := by
        rw [getElem?_place_add_one hfeed]
        decide
      have hpos := List.length_pos_iff.mpr hne
      rw [occursAt_eq_false_of_blank hw hblank (Nat.le_refl _) (by omega)] at h
      cases h
  · intro h
    obtain ⟨i, rfl, hocc⟩ := h
    rw [occursAt_place hw, hocc]

end Words

end CommentGrade.Comment
