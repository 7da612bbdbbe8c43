import CommentGrade.Language.Registry
import CommentGrade.Proofs.Comment.Tags

/-!
# The lines of plain text

In plain text each line is a comment of its own: what is left of it without its indent, without the tags behind the indent
and without the first carriage return and all that follows. A line of which nothing is left is no comment. The expression
can match nothing at all, at the end of a text too, and still no line is found twice.
-/
namespace CommentGrade.Comment

open Text

/-- The comment that a line of plain text is, if the line is the one with this number and begins at this offset. -/
def plainLine? (tags : List String) (offset number : Nat) (line : List Char) : Option Comment :=
  let rest := dropTags tags (line.dropWhile isGap)
  let text := rest.takeWhile (· != '\r')
  let start := offset + (line.length - rest.length)
  if text = [] then none else some ⟨.line, start, start + text.length, number, String.ofList text⟩

/-- The comments of the lines of plain text, of which the first one has this number and begins at this offset. -/
def plainLines (tags : List String) : Nat → Nat → List (List Char) → List Comment
  | _, _, [] => []
  | offset, number, line :: lines =>
    (plainLine? tags offset number line).toList ++ plainLines tags (offset + line.length + 1) (number + 1) lines

/-- The length of lines with a line feed behind each. -/
def extent : List (List Char) → Nat
  | [] => 0
  | line :: lines => line.length + 1 + extent lines

section Lines

variable {tags : List String} {offset number : Nat} {line : List Char} {lines : List (List Char)} {c : Comment}

theorem line_of_plainLine? (h : plainLine? tags offset number line = some c) : c.line = number := by
  simp only [plainLine?, Option.ite_none_left_eq_some, Option.some.injEq] at h
  obtain ⟨-, rfl⟩ := h
  rfl

theorem plainLine?_moved (tags : List String) (offset number k l : Nat) (line : List Char) :
    plainLine? tags (k + offset) (l + number) line = (plainLine? tags offset number line).map (moved k l) := by
  simp only [plainLine?]
  split_ifs
  · rfl
  · simp only [Option.map_some, moved, Nat.add_comm l]
    congr 2 <;> omega

theorem plainLines_moved (tags : List String) (offset number k l : Nat) (lines : List (List Char)) :
    plainLines tags (k + offset) (l + number) lines = (plainLines tags offset number lines).map (moved k l) := by
  induction lines generalizing offset number with
  | nil => rfl
  | cons line lines ih =>
    have hmap : ∀ c? : Option Comment, (c?.map (moved k l)).toList = c?.toList.map (moved k l) := by
      intro c?
      cases c? <;> rfl
    rw [plainLines, plainLines, plainLine?_moved, List.map_append, hmap, ← ih]
    simp only [Nat.add_assoc]

theorem number_le_of_mem_plainLines (h : c ∈ plainLines tags offset number lines) : number ≤ c.line := by
  induction lines generalizing offset number with
  | nil => cases h
  | cons line lines ih =>
    rw [plainLines, List.mem_append, Option.mem_toList] at h
    rcases h with hfirst | hrest
    · exact Nat.le_of_eq (line_of_plainLine? hfirst).symm
    · exact Nat.le_of_succ_le (ih hrest)

theorem pairwise_plainLines (tags : List String) (offset number : Nat) (lines : List (List Char)) :
    (plainLines tags offset number lines).Pairwise (·.line < ·.line) := by
  induction lines generalizing offset number with
  | nil => exact List.Pairwise.nil
  | cons line lines ih =>
    rw [plainLines, List.pairwise_append]
    refine ⟨?_, ih _ _, ?_⟩
    · cases plainLine? tags offset number line with
      | none => exact List.Pairwise.nil
      | some c => exact List.pairwise_singleton _ _
    · intro c hc d hd
      rw [line_of_plainLine? (Option.mem_toList.mp hc)]
      exact number_le_of_mem_plainLines hd

/-- The comments on a line are what the line with this number gives behind the lines above it. -/
theorem filter_plainLines (tags : List String) (offset number : Nat) (lines : List (List Char)) (i : Nat) :
    (plainLines tags offset number lines).filter (·.line == number + i) =
      (lines[i]?.bind (plainLine? tags (offset + extent (lines.take i)) (number + i))).toList := by
  induction lines generalizing offset number i with
  | nil => rfl
  | cons line lines ih =>
    rw [plainLines, List.filter_append]
    cases i with
    | zero =>
      have hfirst : (plainLine? tags offset number line).toList.filter (·.line == number + 0) =
          (plainLine? tags offset number line).toList := by
        rw [List.filter_eq_self]
        intro c hc
        rw [line_of_plainLine? (Option.mem_toList.mp hc)]
        exact beq_self_eq_true number
      have hrest : (plainLines tags (offset + line.length + 1) (number + 1) lines).filter (·.line == number + 0) = [] := by
        rw [List.filter_eq_nil_iff]
        intro c hc
        have hle := number_le_of_mem_plainLines hc
        simp only [beq_iff_eq]
        omega
      rw [hfirst, hrest, List.append_nil]
      rfl
    | succ i =>
      have hfirst : (plainLine? tags offset number line).toList.filter (·.line == number + (i + 1)) = [] := by
        rw [List.filter_eq_nil_iff]
        intro c hc
        rw [line_of_plainLine? (Option.mem_toList.mp hc), beq_iff_eq]
        omega
      have hextent : offset + extent ((line :: lines).take (i + 1)) = offset + line.length + 1 + extent (lines.take i) := by
        rw [List.take_succ_cons, extent]
        omega
      have hnumber : number + (i + 1) = number + 1 + i := by omega
      rw [hfirst, List.nil_append, hextent, hnumber, ih, List.getElem?_cons_succ]

end Lines

section Scan

variable {tags : List String} {a : List Char}

theorem isLineStart_eq_false (ha : '\n' ∉ a) {i : Nat} (hpos : 0 < i) (hi : i ≤ a.length) : isLineStart a i = false := by
  have hne : a.take i ≠ [] := by
    rw [← List.length_pos_iff, List.length_take]
    omega
  have hlast : (a.take i).getLast hne ∈ a := List.mem_of_mem_take (List.getLast_mem hne)
  rw [isLineStart, List.getLast?_eq_some_getLast hne, Option.all_some, beq_eq_false_iff_ne]
  intro hfeed
  exact ha (hfeed ▸ hlast)

theorem lineHits_lineStart (ha : '\n' ∉ a) (tags : List String) :
    let body := farthest a.length (firstTag? (tagTexts tags) a) (skip isGap a 0)
    lineHits .lineStart (tagTexts tags) a = [⟨0, body, skip isInLine a body⟩] := by
  intro body
  have hfirst : lineHit? .lineStart (tagTexts tags) a 0 = some ⟨0, body, skip isInLine a body⟩ := rfl
  have hrest : ∀ k, 0 < k → hitsFrom (lineHit? .lineStart (tagTexts tags) a) LineHit.stop a.length k = [] := by
    intro k hk
    rw [List.eq_nil_iff_forall_not_mem]
    intro hit hmem
    obtain ⟨i, hki, hi, hhit⟩ := exists_of_mem_hitsFrom hmem
    rw [lineHit?, LineHead.end?, isLineStart_eq_false ha (Nat.lt_of_lt_of_le hk hki) hi, if_neg Bool.false_ne_true] at hhit
    cases hhit
  rw [lineHits, hitsFrom_of_some (Nat.zero_le _) hfirst, hrest _ (by omega)]

theorem takeWhile_isInLine (ha : '\n' ∉ a) : a.takeWhile isInLine = a.takeWhile (· != '\r') := by
  induction a with
  | nil => rfl
  | cons c a ih =>
    rw [List.mem_cons, not_or] at ha
    obtain ⟨hc, ha⟩ := ha
    have hclass : isInLine c = (c != '\r') := by rw [isInLine, bne_iff_ne.mpr (Ne.symm hc), Bool.and_true]
    rw [List.takeWhile_cons, List.takeWhile_cons, hclass, ih ha]

theorem lineComments_lineStart (ha : '\n' ∉ a) (tags : List String) :
    lineComments false (LineHead.lineStart.expression tags) a = (plainLine? tags 0 0 a).toList := by
  let body := farthest a.length (firstTag? (tagTexts tags) a) (skip isGap a 0)
  have hbody : body ≤ a.length := farthest_le (advancing_firstTag? tags a) (skip_le isGap (Nat.zero_le _))
  have hrest : dropTags tags (a.dropWhile isGap) = a.drop body := by
    rw [← dropTags_drop, drop_skip, List.drop_zero]
  have hstart : a.length - (a.drop body).length = body := by
    rw [List.length_drop]
    omega
  have htext : (a.drop body).takeWhile isInLine = (a.drop body).takeWhile (· != '\r') :=
    takeWhile_isInLine fun h => ha (List.mem_of_mem_drop h)
  have hstop : skip isInLine a body = body + ((a.drop body).takeWhile (· != '\r')).length := by rw [skip, htext]
  have hproper : LineHead.lineStart.Proper := trivial
  have hempty : (a.drop body).takeWhile (· != '\r') = [] ↔ ¬ body < skip isInLine a body := by
    rw [hstop, ← List.length_eq_zero_iff]
    omega
  have hfound : LineHit.found? false a ⟨0, body, skip isInLine a body⟩ = plainLine? tags 0 0 a := by
    change ofRange? .line a 0 body (skip isInLine a body) = _
    rw [ofRange?, between_skip, htext]
    simp only [plainLine?, hrest, hstart, Nat.zero_add, hempty, ← hstop, ite_not]
  rw [lineComments_eq hproper, lineHits_lineStart ha, List.filterMap_cons, hfound]
  cases plainLine? tags 0 0 a <;> rfl

end Scan

section Extraction

variable {scope : Scope}

theorem extract_plainTextProfile (scope : Scope) (cs : List Char) :
    extract (Language.plainTextProfile true) (Patterns.ofProfile (Language.plainTextProfile true) scope) cs =
      extractOf .line (Language.plainTextProfile true) scope cs := by
  have hblock : (Patterns.ofProfile (Language.plainTextProfile true) scope).block = none := ite_self _
  have hdoc : (Patterns.ofProfile (Language.plainTextProfile true) scope).doc = none := rfl
  rw [extractOf, extract_filter_kind rfl, extract_eq_runs rfl, hblock, hdoc]
  exact (List.append_nil _).trans (List.append_nil _)

variable (hplain : scope.plainText = true)
include hplain

theorem extractOf_plainTextProfile (cs : List Char) : extractOf .line (Language.plainTextProfile true) scope cs =
    lineComments false (LineHead.lineStart.expression scope.tags) cs := by
  have hhead : LineHead.ofProfile? (Language.plainTextProfile true) scope.plainText = some .lineStart := by
    rw [hplain]
    rfl
  rw [extractOf_line rfl, hhead]
  rfl

/-- Each line goes into its own comment: a line feed ends one line of the text and begins another. -/
theorem extractOf_eq_plainLines (htags : ∀ t ∈ scope.tags, '\r' ∉ t.toList ∧ '\n' ∉ t.toList) (cs : List Char) :
    extractOf .line (Language.plainTextProfile true) scope cs = plainLines scope.tags 0 0 (cs.splitOn '\n') := by
  have hfeeds : ∀ t ∈ scope.tags, '\n' ∉ t.toList := fun t ht => (htags t ht).2
  induction cs using lines_induction with
  | last a ha =>
    rw [extractOf_plainTextProfile hplain, lineComments_lineStart ha, List.splitOn_eq_singleton ha, plainLines, plainLines,
      List.append_nil]
  | line a b ha ih =>
    have hcount : a.count '\n' = 0 := List.count_eq_zero_of_not_mem ha
    have hrest : anywhere (Language.plainTextProfile true) = Language.plainTextProfile true := rfl
    rw [extractOf_line_append rfl (by rintro d ⟨⟩) hfeeds, hrest, ih, extractOf_plainTextProfile hplain,
      lineComments_lineStart ha, List.splitOn_append_cons_self_of_not_mem ha, plainLines, ← plainLines_moved, hcount]
    simp only [Nat.zero_add, Nat.add_zero]

end Extraction

/-- In plain text the comments are what is left of the lines, one after the other: of each line its comment if anything is
left, at its own offset and with its own number. So the lines of the comments increase, and on each line is exactly the
comment that the line gives. -/
theorem extract_plainText (scope : Scope) (cs : List Char) (hplain : scope.plainText = true)
    (htags : ∀ t ∈ scope.tags, '\r' ∉ t.toList ∧ '\n' ∉ t.toList) :
    let profile := Language.profileFor Language.plainTextId true
    let found := extract profile (Patterns.ofProfile profile scope) cs
    let lines := cs.splitOn '\n'
    found = plainLines scope.tags 0 0 lines ∧ found.Pairwise (·.line < ·.line) ∧
      ∀ i, found.filter (·.line == i) = (lines[i]?.bind (plainLine? scope.tags (extent (lines.take i)) i)).toList := by
  intro profile found lines
  have hfound : found = plainLines scope.tags 0 0 lines :=
    (extract_plainTextProfile scope cs).trans (extractOf_eq_plainLines hplain htags cs)
  refine ⟨hfound, ?_, ?_⟩
  · rw [hfound]
    exact pairwise_plainLines scope.tags 0 0 lines
  · intro i
    have hline := filter_plainLines scope.tags 0 0 lines i
    rw [Nat.zero_add, Nat.zero_add] at hline
    rw [hfound]
    exact hline

/-- Of blank lines and of lines that are nothing but tags nothing is left. A comment ends before the first carriage
return. -/
theorem extract_plainText_blank :
    let scope : Scope := { tags := ["TODO", "TO"], plainText := true }
    let profile := Language.profileFor Language.plainTextId true
    let cs := "a\r\n\n \t\r\n todoTO b\rc\nTODO\n\rd\n".toList
    scope.plainText = true ∧ (∀ t ∈ scope.tags, '\r' ∉ t.toList ∧ '\n' ∉ t.toList) ∧
      extract profile (Patterns.ofProfile profile scope) cs = [⟨.line, 0, 1, 0, "a"⟩, ⟨.line, 15, 17, 3, " b"⟩] := by
  intro scope profile cs
  have htags : ∀ t ∈ scope.tags, '\r' ∉ t.toList ∧ '\n' ∉ t.toList := by decide
  have h := (extract_plainText scope cs rfl htags).1
  exact ⟨rfl, htags, h.trans (by decide +kernel)⟩

end CommentGrade.Comment
