import CommentGrade.Proofs.Text.Lines

/-!
# Words and runs

A text is cut into words at every blank, so the words of a text are those before a blank and those behind it. They are
the maximal runs of characters that are not blank, in their order. Where two texts meet without a blank, their last and
first word become one.
-/
namespace CommentGrade.Text

/-- Whether no character of a text is blank. -/
def IsSolid (cs : List Char) : Prop := ∀ c ∈ cs, isBlank c = false

/-- A stretch of characters of a text that are not blank. -/
structure IsStretch (cs : List Char) (s : Span) : Prop where
  nonempty : s.start < s.stop
  solid : ∀ k, s.start ≤ k → k < s.stop → ∃ c, cs[k]? = some c ∧ isBlank c = false

/-- A stretch of characters that are not blank, and that no such stretch extends. -/
structure IsRun (cs : List Char) (s : Span) : Prop where
  stretch : IsStretch cs s
  maximal : ∀ t, IsStretch cs t → t.start ≤ s.start → s.stop ≤ t.stop → t = s

theorem IsSolid.append {a b : List Char} (ha : IsSolid a) (hb : IsSolid b) : IsSolid (a ++ b) :=
  List.forall_mem_append.mpr ⟨ha, hb⟩

theorem solid_or_firstBlank (cs : List Char) :
    IsSolid cs ∨ ∃ a c b, cs = a ++ c :: b ∧ IsSolid a ∧ isBlank c = true := by
  induction cs with
  | nil => exact .inl nofun
  | cons x cs ih =>
    cases hx : isBlank x with
    | true => exact .inr ⟨[], x, cs, rfl, nofun, hx⟩
    | false =>
      have hone : IsSolid [x] := fun c hc => List.mem_singleton.mp hc ▸ hx
      rcases ih with hsolid | ⟨a, c, b, rfl, ha, hc⟩
      · exact .inl (hone.append hsolid)
      · exact .inr ⟨x :: a, c, b, rfl, hone.append ha, hc⟩

theorem solid_or_lastBlank (cs : List Char) :
    IsSolid cs ∨ ∃ a c b, cs = a ++ c :: b ∧ IsSolid b ∧ isBlank c = true := by
  induction cs with
  | nil => exact .inl nofun
  | cons x cs ih =>
    rcases ih with hsolid | ⟨a, c, b, rfl, hb, hc⟩
    · cases hx : isBlank x with
      | true => exact .inr ⟨[], x, cs, rfl, hsolid, hx⟩
      | false => exact .inl (IsSolid.append (fun c hc => List.mem_singleton.mp hc ▸ hx) hsolid)
    · exact .inr ⟨x :: a, c, b, rfl, hb, hc⟩

/-- A text is without a blank, or it has a text on either side of a blank. -/
theorem blank_induction {P : List Char → Prop} (solid : ∀ a, IsSolid a → P a)
    (blank : ∀ a c b, isBlank c = true → P a → P b → P (a ++ c :: b)) (cs : List Char) : P cs := by
  induction hn : cs.length using Nat.strongRecOn generalizing cs with
  | ind n ih =>
    rcases solid_or_firstBlank cs with hsolid | ⟨a, c, b, rfl, ha, hc⟩
    · exact solid cs hsolid
    · rw [List.length_append, List.length_cons] at hn
      exact blank a c b hc (solid a ha) (ih b.length (by omega) b rfl)

section Words

@[simp] theorem words_nil : words [] = [] := rfl

theorem words_append_blank {c : Char} (hc : isBlank c = true) (a b : List Char) :
    words (a ++ c :: b) = words a ++ words b := by
  rw [words, List.splitOnP_append_cons a b hc, List.filter_append]
  rfl

theorem words_blank_cons {c : Char} (hc : isBlank c = true) (cs : List Char) : words (c :: cs) = words cs :=
  words_append_blank hc [] cs

theorem words_of_isSolid {w : List Char} (hw : IsSolid w) (hne : w ≠ []) : words w = [w] := by
  rw [words, List.splitOnP_eq_singleton hw]
  simpa using hne

theorem words_gap_append {gap : List Char} (hgap : isAllBlank gap = true) (cs : List Char) :
    words (gap ++ cs) = words cs := by
  induction gap with
  | nil => rfl
  | cons c gap ih =>
    rw [isAllBlank, List.all_cons, Bool.and_eq_true] at hgap
    rw [List.cons_append, words_blank_cons hgap.1, ih hgap.2]

theorem words_dropWhile (cs : List Char) : words (cs.dropWhile isBlank) = words cs := by
  conv_rhs => rw [← List.takeWhile_append_dropWhile (p := isBlank) (l := cs)]
  rw [words_gap_append List.all_takeWhile]

/-- White space between two texts keeps their words apart. -/
theorem words_append_gap_append (a b : List Char) {gap : List Char} (hgap : isAllBlank gap = true) (hne : gap ≠ []) :
    words (a ++ gap ++ b) = words a ++ words b := by
  obtain ⟨c, gap, rfl⟩ := List.exists_cons_of_ne_nil hne
  rw [isAllBlank, List.all_cons, Bool.and_eq_true] at hgap
  rw [List.append_assoc, List.cons_append, words_append_blank hgap.1, words_gap_append hgap.2]

/-- A text without a blank behind another one makes its last word longer, or it is one more word. -/
theorem length_words_append_of_isSolid (a : List Char) {w : List Char} (hw : IsSolid w) (hne : w ≠ []) :
    1 ≤ (words (a ++ w)).length ∧ (words a).length ≤ (words (a ++ w)).length ∧
      (words (a ++ w)).length ≤ (words a).length + 1 := by
  have hsolid : ∀ s, IsSolid s → (words (s ++ w)).length = 1 ∧ (words s).length ≤ 1 := by
    intro s hs
    rw [words_of_isSolid (hs.append hw) (List.append_ne_nil_of_right_ne_nil s hne)]
    refine ⟨rfl, ?_⟩
    by_cases hnil : s = []
    · simp [hnil]
    · exact (words_of_isSolid hs hnil ▸ Nat.le_refl 1)
  rcases solid_or_lastBlank a with ha | ⟨p, c, s, rfl, hs, hc⟩
  · have := hsolid a ha
    omega
  · have := hsolid s hs
    rw [List.append_assoc, List.cons_append, words_append_blank hc, words_append_blank hc, List.length_append,
      List.length_append]
    omega

/-- Two texts that are joined have no more words than both, and no fewer than either. -/
theorem length_words_append (a b : List Char) :
    (words a).length ≤ (words (a ++ b)).length ∧ (words b).length ≤ (words (a ++ b)).length ∧
      (words (a ++ b)).length ≤ (words a).length + (words b).length := by
  have hsolid : ∀ w, IsSolid w → (words a).length ≤ (words (a ++ w)).length ∧
      (words w).length ≤ (words (a ++ w)).length ∧
      (words (a ++ w)).length ≤ (words a).length + (words w).length := by
    intro w hw
    by_cases hnil : w = []
    · simp [hnil]
    · rw [words_of_isSolid hw hnil, List.length_singleton]
      have := length_words_append_of_isSolid a hw hnil
      omega
  rcases solid_or_firstBlank b with hb | ⟨w, c, b, rfl, hw, hc⟩
  · exact hsolid b hb
  · have := hsolid w hw
    rw [← List.append_assoc, words_append_blank hc, words_append_blank hc, List.length_append, List.length_append]
    omega

theorem length_words_le (cs : List Char) : (words cs).length ≤ cs.length := by
  induction cs using blank_induction with
  | solid a ha =>
    by_cases hnil : a = []
    · simp [hnil]
    · rw [words_of_isSolid ha hnil, List.length_singleton]
      exact List.length_pos_iff.mpr hnil
  | blank a c b hc iha ihb =>
    rw [words_append_blank hc, List.length_append, List.length_append, List.length_cons]
    omega

end Words

section Runs

/-- A span that is moved to the right. -/
def shifted (n : Nat) (s : Span) : Span := ⟨n + s.start, n + s.stop⟩

/-- The characters of a text in a span. -/
def textOf (cs : List Char) (s : Span) : List Char := (cs.take s.stop).drop s.start

variable {a b cs : List Char} {c : Char} {s : Span}

theorem shifted_inj {n : Nat} {t u : Span} (h : shifted n t = shifted n u) : t = u := by
  obtain ⟨hstart, hstop⟩ := Span.mk.inj h
  obtain ⟨start, stop⟩ := t
  obtain rfl : start = u.start := Nat.add_left_cancel hstart
  obtain rfl : stop = u.stop := Nat.add_left_cancel hstop
  rfl

theorem isStretch_append_blank_iff (hc : isBlank c = true) :
    IsStretch (a ++ c :: b) s ↔
      IsStretch a s ∨ ∃ t, IsStretch b t ∧ s = shifted (a.length + 1) t := by
  have hbefore : ∀ k < a.length, (a ++ c :: b)[k]? = a[k]? := fun k hk => List.getElem?_append_left hk
  have hat : (a ++ c :: b)[a.length]? = some c := by
    rw [List.getElem?_append_right (Nat.le_refl _), Nat.sub_self, List.getElem?_cons_zero]
  have hbehind : ∀ k, (a ++ c :: b)[a.length + 1 + k]? = b[k]? := by
    intro k
    rw [Nat.add_assoc, Nat.add_comm 1 k, List.getElem?_append_right (Nat.le_add_right _ _), Nat.add_sub_cancel_left,
      List.getElem?_cons_succ]
  constructor
  · intro hs
    by_cases hside : s.stop ≤ a.length
    · refine .inl ⟨hs.nonempty, fun k hstart hstop => ?_⟩
      rw [← hbefore k (by omega)]
      exact hs.solid k hstart hstop
    · have hstart : a.length + 1 ≤ s.start := by
        by_contra hnot
        obtain ⟨x, hx, hsolid⟩ := hs.solid a.length (by omega) (by omega)
        obtain rfl := Option.some.inj (hat.symm.trans hx)
        rw [hc] at hsolid
        cases hsolid
      obtain ⟨n, hn⟩ := Nat.exists_eq_add_of_le hstart
      obtain ⟨m, hm⟩ := Nat.exists_eq_add_of_le (Nat.le_trans hstart (Nat.le_of_lt hs.nonempty))
      have hlt := hs.nonempty
      refine .inr ⟨⟨n, m⟩, ⟨by simp only; omega, fun k hfrom hto => ?_⟩, by rw [shifted, ← hn, ← hm]⟩
      rw [← hbehind]
      exact hs.solid _ (by simp only at hfrom; omega) (by simp only at hto; omega)
  · intro hs
    rcases hs with hs | ⟨t, ht, rfl⟩
    · refine ⟨hs.nonempty, fun k hstart hstop => ?_⟩
      obtain ⟨x, hx, hsolid⟩ := hs.solid k hstart hstop
      exact ⟨x, (hbefore k (List.getElem?_eq_some_iff.mp hx).1).trans hx, hsolid⟩
    · refine ⟨Nat.add_lt_add_left ht.nonempty _, fun k hstart hstop => ?_⟩
      simp only [shifted] at hstart hstop
      obtain ⟨k, rfl⟩ := Nat.exists_eq_add_of_le (Nat.le_trans (Nat.le_add_right _ _) hstart)
      rw [hbehind]
      exact ht.solid k (Nat.le_of_add_le_add_left hstart) (Nat.lt_of_add_lt_add_left hstop)

theorem IsStretch.stop_le (h : IsStretch cs s) : s.stop ≤ cs.length := by
  have hlt := h.nonempty
  obtain ⟨x, hx, -⟩ := h.solid (s.stop - 1) (by omega) (by omega)
  have := (List.getElem?_eq_some_iff.mp hx).1
  omega

theorem isRun_append_blank_iff (hc : isBlank c = true) :
    IsRun (a ++ c :: b) s ↔ IsRun a s ∨ ∃ t, IsRun b t ∧ s = shifted (a.length + 1) t := by
  constructor
  · intro hs
    rcases (isStretch_append_blank_iff hc).mp hs.stretch with hleft | ⟨t, ht, rfl⟩
    · exact .inl ⟨hleft, fun u hu => hs.maximal u ((isStretch_append_blank_iff hc).mpr (.inl hu))⟩
    · refine .inr ⟨t, ⟨ht, fun u hu hstart hstop => shifted_inj (n := a.length + 1) ?_⟩, rfl⟩
      exact hs.maximal _ ((isStretch_append_blank_iff hc).mpr (.inr ⟨u, hu, rfl⟩)) (Nat.add_le_add_left hstart _)
        (Nat.add_le_add_left hstop _)
  · intro hs
    rcases hs with hs | ⟨t, ht, rfl⟩
    · refine ⟨(isStretch_append_blank_iff hc).mpr (.inl hs.stretch), fun u hu hstart hstop => ?_⟩
      rcases (isStretch_append_blank_iff hc).mp hu with hleft | ⟨v, -, rfl⟩
      · exact hs.maximal u hleft hstart hstop
      · have hle := hs.stretch.stop_le
        have hlt := hs.stretch.nonempty
        simp only [shifted] at hstart
        omega
    · refine ⟨(isStretch_append_blank_iff hc).mpr (.inr ⟨t, ht.stretch, rfl⟩), fun u hu hstart hstop => ?_⟩
      rcases (isStretch_append_blank_iff hc).mp hu with hleft | ⟨v, hv, rfl⟩
      · have hle := hleft.stop_le
        simp only [shifted] at hstop
        omega
      · rw [ht.maximal v hv (Nat.le_of_add_le_add_left hstart) (Nat.le_of_add_le_add_left hstop)]

theorem isRun_iff_of_isSolid (hcs : IsSolid cs) (hne : cs ≠ []) : IsRun cs s ↔ s = ⟨0, cs.length⟩ := by
  have hwhole : IsStretch cs ⟨0, cs.length⟩ :=
    ⟨List.length_pos_iff.mpr hne, fun k _ hk => ⟨cs[k], List.getElem?_eq_getElem hk, hcs _ (List.getElem_mem hk)⟩⟩
  constructor
  · intro hs
    exact (hs.maximal _ hwhole (Nat.zero_le _) hs.stretch.stop_le).symm
  · rintro rfl
    refine ⟨hwhole, fun t ht hstart hstop => ?_⟩
    obtain ⟨start, stop⟩ := t
    obtain rfl : start = 0 := Nat.le_zero.mp hstart
    obtain rfl : stop = cs.length := Nat.le_antisymm ht.stop_le hstop
    rfl

theorem not_isRun_nil : ¬IsRun [] s := by
  intro hs
  have hle := hs.stretch.stop_le
  have hlt := hs.stretch.nonempty
  rw [List.length_nil] at hle
  omega

/-- The words of a text are its runs, in order. -/
theorem exists_runs (cs : List Char) : ∃ runs : List Span, runs.Pairwise (fun s t => s.stop < t.start) ∧
    (∀ s, s ∈ runs ↔ IsRun cs s) ∧ words cs = runs.map (textOf cs) := by
  induction cs using blank_induction with
  | solid a ha =>
    by_cases hnil : a = []
    · subst hnil
      exact ⟨[], .nil, fun s => ⟨nofun, fun hs => absurd hs not_isRun_nil⟩, rfl⟩
    · refine ⟨[⟨0, a.length⟩], List.pairwise_singleton _ _, fun s => ?_, ?_⟩
      · rw [List.mem_singleton, isRun_iff_of_isSolid ha hnil]
      · rw [words_of_isSolid ha hnil, List.map_singleton, textOf, List.take_length, List.drop_zero]
  | blank a c b hc iha ihb =>
    obtain ⟨before, hbefore, hmemBefore, hwordsBefore⟩ := iha
    obtain ⟨behind, hbehind, hmemBehind, hwordsBehind⟩ := ihb
    refine ⟨before ++ behind.map (shifted (a.length + 1)), ?_, fun s => ?_, ?_⟩
    · rw [List.pairwise_append, List.pairwise_map]
      refine ⟨hbefore, hbehind.imp (Nat.add_lt_add_left · _), fun s hs t ht => ?_⟩
      obtain ⟨u, -, rfl⟩ := List.mem_map.mp ht
      have hle := ((hmemBefore s).mp hs).stretch.stop_le
      simp only [shifted]
      omega
    · rw [isRun_append_blank_iff hc, List.mem_append, hmemBefore, List.mem_map]
      simp only [hmemBehind, eq_comm]
    · rw [words_append_blank hc, hwordsBefore, hwordsBehind, List.map_append, List.map_map]
      congr 1
      · apply List.map_congr_left
        intro s hs
        have hle := ((hmemBefore s).mp hs).stretch.stop_le
        rw [textOf, textOf, List.take_append_of_le_length hle]
      · apply List.map_congr_left
        intro s _
        have hsplit : a ++ c :: b = (a ++ [c]) ++ b := by rw [List.append_assoc, List.singleton_append]
        have hlength : a.length + 1 = (a ++ [c]).length := by rw [List.length_append, List.length_singleton]
        rw [Function.comp_apply, textOf, textOf, shifted, hsplit, hlength, List.take_length_add_append,
          List.drop_length_add_append]

end Runs

end CommentGrade.Text
