import CommentGrade.Proofs.ReadingTime.Fragments
import CommentGrade.Proofs.Report.Snippet
import CommentGrade.Proofs.Text.Words

/-!
# Counted words

The words of a text are the maximal runs of characters that are not blank in what remains of it without its fragments.
The same number comes out in stages: fragments are found by going as far as possible and then back to a bracket, every
run of white space becomes one blank, the text is stripped, and the parts between the blanks are counted.
-/
namespace CommentGrade.ReadingTime

open Text Report

section Stages

/-- As many characters as possible that are no closing bracket, given back one by one until an opening bracket follows;
the length up to and including that bracket. -/
def backedOff? : List Char → Option Nat
  | [] => none
  | c :: cs =>
    ((if c = '>' then none else backedOff? cs).map (· + 1)).or (if c = '<' then some 1 else none)

/-- The length of the fragment that a text begins with: at least one character stands between the blank and the bracket. -/
def fragment? : List Char → Option Nat
  | '<' :: ' ' :: c :: cs => if c = '>' then none else (backedOff? cs).map (· + 3)
  | _ => none

/-- The text without the matches that are found from left to right; the number of characters of a match that are still
to be dropped is carried along. -/
def withoutMatches (match? : List Char → Option Nat) : Nat → List Char → List Char
  | _, [] => []
  | n + 1, _ :: cs => withoutMatches match? n cs
  | 0, c :: cs =>
    match match? (c :: cs) with
    | some (n + 1) => withoutMatches match? n cs
    | _ => c :: withoutMatches match? 0 cs

/-- One blank for each run of white space. -/
def collapsed : List Char → List Char
  | [] => []
  | c :: cs => if isBlank c then ' ' :: collapsed (cs.dropWhile isBlank) else c :: collapsed cs
termination_by cs => cs.length
decreasing_by
  · exact Nat.lt_succ_of_le (List.dropWhile_sublist _).length_le
  · exact Nat.lt_succ_self _

/-- How many parts a text has between its blanks; none if it is empty. -/
def partCount (cs : List Char) : Nat := if cs = [] then 0 else (cs.splitOn ' ').length

/-- The number of words, found in stages. -/
def stagedWordCount (cs : List Char) : Nat := partCount (strip (collapsed (withoutMatches fragment? 0 cs)))

end Stages

section Matches

variable {cs : List Char}

/-- The bracket that is found by going back is the last one before the next closing one. -/
theorem backedOff?_eq (cs : List Char) : backedOff? cs =
    if lastBracket (cs.takeWhile (· != '>')) = 0 then none else some (lastBracket (cs.takeWhile (· != '>'))) := by
  induction cs with
  | nil => rfl
  | cons c cs ih =>
    rw [backedOff?, ih]
    by_cases hc : c = '>'
    · subst hc
      rfl
    · have hopen : (c != '>') = true := bne_iff_ne.mpr hc
      rw [if_neg hc, List.takeWhile_cons, if_pos hopen, lastBracket_cons]
      split_ifs <;> simp_all

theorem fragment?_cons (c : Char) (cs : List Char) :
    fragment? (c :: cs) = (if c = '<' then fragmentRest? cs else none).map (· + 1) := by
  unfold fragment?
  split
  next x tail heq =>
    obtain ⟨rfl, rfl⟩ := List.cons.inj heq
    rw [if_pos rfl, backedOff?_eq]
    by_cases hx : x = '>'
    · subst hx
      rfl
    · have hopen : (x != '>') = true := bne_iff_ne.mpr hx
      simp only [fragmentRest?, List.takeWhile_cons, hopen, if_true, if_neg hx]
      split_ifs <;> rfl
  next hnone =>
    by_cases hc : c = '<'
    · subst hc
      rw [if_pos rfl, eq_comm, Option.map_eq_none_iff, Option.eq_none_iff_forall_ne_some]
      intro n hn
      obtain ⟨x, tail, m, rfl, -⟩ := fragmentRest?_eq_some_iff_lastBracket.mp hn
      exact hnone x tail rfl
    · rw [if_neg hc]
      rfl

theorem withoutMatches_fragment? (n : Nat) (cs : List Char) :
    withoutMatches fragment? n cs = dropFragments n cs := by
  induction cs generalizing n with
  | nil => cases n <;> rfl
  | cons c cs ih =>
    cases n with
    | succ n => exact ih n
    | zero =>
      rw [withoutMatches, dropFragments, fragment?_cons]
      cases if c = '<' then fragmentRest? cs else none with
      | none => exact congrArg (c :: ·) (ih 0)
      | some n => exact ih n

end Matches

section Parts

variable {cs : List Char}

theorem collapsed_append {a : List Char} (ha : IsSolid a) (b : List Char) : collapsed (a ++ b) = a ++ collapsed b := by
  induction a with
  | nil => rfl
  | cons c a ih =>
    obtain ⟨hc, ha⟩ := List.forall_mem_cons.mp ha
    rw [List.cons_append, collapsed, hc, ih ha]
    rfl

theorem collapsed_of_isSolid (h : IsSolid cs) : collapsed cs = cs := by
  have hself := collapsed_append h []
  rwa [List.append_nil, collapsed, List.append_nil] at hself

theorem collapsed_append_blank {a b : List Char} {c : Char} (ha : IsSolid a) (hc : isBlank c = true) :
    collapsed (a ++ c :: b) = a ++ ' ' :: collapsed (b.dropWhile isBlank) := by
  rw [collapsed_append ha, collapsed, if_pos hc]

theorem isBlank_of_collapsed_eq_cons {b rest : List Char} {x : Char} (h : collapsed (b.dropWhile isBlank) = x :: rest) :
    isBlank x = false := by
  have hhead := List.head?_dropWhile_not isBlank b
  cases hb : b.dropWhile isBlank with
  | nil =>
    rw [hb, collapsed] at h
    cases h
  | cons c cs =>
    rw [hb] at h hhead
    have hc : isBlank c = false := hhead
    rw [collapsed, hc] at h
    exact (List.cons.inj h).1 ▸ hc

theorem exists_ends {ws : List (List Char)} (hws : AreWords ws) (hne : ws ≠ []) :
    (∃ c rest, [' '].intercalate ws = c :: rest ∧ isBlank c = false) ∧
      ∃ front c, [' '].intercalate ws = front ++ [c] ∧ isBlank c = false := by
  have hword : ∀ w, w ≠ [] → IsSolid w →
      (∃ c rest, w = c :: rest ∧ isBlank c = false) ∧ ∃ front c, w = front ++ [c] ∧ isBlank c = false := by
    intro w hw hsolid
    refine ⟨⟨w.head hw, w.tail, (List.cons_head_tail hw).symm, hsolid _ (List.head_mem hw)⟩, ?_⟩
    exact ⟨w.dropLast, w.getLast hw, (List.dropLast_append_getLast hw).symm, hsolid _ (List.getLast_mem hw)⟩
  induction ws with
  | nil => exact absurd rfl hne
  | cons w ws ih =>
    obtain ⟨⟨hw, hsolid⟩, hrest⟩ := List.forall_mem_cons.mp hws
    obtain ⟨hfirst, hlast⟩ := hword w hw hsolid
    by_cases hnil : ws = []
    · subst hnil
      rw [List.intercalate_singleton]
      exact ⟨hfirst, hlast⟩
    · obtain ⟨c, rest, rfl, hc⟩ := hfirst
      obtain ⟨-, front, d, hd, hblank⟩ := ih hrest hnil
      rw [intercalate_cons hnil]
      exact ⟨⟨c, _, rfl, hc⟩, _, d, by rw [hd, ← List.cons_append, ← List.append_assoc], hblank⟩

/-- What is left of a text in which every run of white space is one blank: its words with single blanks between them,
and white space on either side. -/
theorem exists_collapsed (cs : List Char) : ∃ lead trail, isAllBlank lead = true ∧ isAllBlank trail = true ∧
    collapsed cs = lead ++ [' '].intercalate (words cs) ++ trail := by
  induction hn : cs.length using Nat.strongRecOn generalizing cs with
  | ind n ih =>
    rcases solid_or_firstBlank cs with hsolid | ⟨a, c, b, rfl, ha, hc⟩
    · refine ⟨[], [], rfl, rfl, ?_⟩
      rw [collapsed_of_isSolid hsolid, List.append_nil, List.nil_append]
      by_cases hnil : cs = []
      · subst hnil
        rfl
      · rw [words_of_isSolid hsolid hnil, List.intercalate_singleton]
    · obtain ⟨lead, trail, hlead, htrail, hcollapsed⟩ := ih (b.dropWhile isBlank).length (by
        have := (List.dropWhile_sublist isBlank (l := b)).length_le
        rw [List.length_append, List.length_cons] at hn
        omega) _ rfl
      rw [words_dropWhile] at hcollapsed
      rw [collapsed_append_blank ha hc, hcollapsed, words_append_blank hc]
      by_cases hnil : a = []
      · subst hnil
        exact ⟨' ' :: lead, trail, hlead, htrail, rfl⟩
      · rw [words_of_isSolid ha hnil, List.singleton_append]
        by_cases hlast : words b = []
        · refine ⟨[], ' ' :: (lead ++ trail), rfl, ?_, ?_⟩
          · rw [isAllBlank, List.all_cons, List.all_append, Bool.and_eq_true, Bool.and_eq_true]
            exact ⟨by decide, hlead, htrail⟩
          · rw [hlast, List.intercalate_singleton, List.intercalate_nil, List.append_nil]
            rfl
        · obtain rfl : lead = [] := by
            cases lead with
            | nil => rfl
            | cons x lead =>
              rw [isAllBlank, List.all_cons, isBlank_of_collapsed_eq_cons hcollapsed] at hlead
              cases hlead
          refine ⟨[], trail, rfl, htrail, ?_⟩
          rw [intercalate_cons hlast]
          simp

theorem strip_eq {lead cs trail front rest : List Char} {c d : Char} (hlead : isAllBlank lead = true)
    (htrail : isAllBlank trail = true) (hfirst : cs = c :: rest) (hc : isBlank c = false) (hlast : cs = front ++ [d])
    (hd : isBlank d = false) : strip (lead ++ cs ++ trail) = cs := by
  have hbefore : (lead ++ cs ++ trail).dropWhile isBlank = cs ++ trail := by
    rw [List.append_assoc, List.dropWhile_append_of_pos (List.all_eq_true.mp hlead), hfirst, List.cons_append,
      List.dropWhile_cons_of_neg (Bool.eq_false_iff.mp hc)]
  have hbehind : (cs ++ trail).reverse.dropWhile isBlank = cs.reverse := by
    have hback : ∀ x ∈ trail.reverse, isBlank x = true := fun x hx =>
      List.all_eq_true.mp htrail x (List.mem_reverse.mp hx)
    rw [List.reverse_append, List.dropWhile_append_of_pos hback, hlast, List.reverse_append, List.reverse_singleton,
      List.singleton_append, List.dropWhile_cons_of_neg (Bool.eq_false_iff.mp hd)]
  rw [strip, stripOf, hbefore, hbehind, List.reverse_reverse]

theorem strip_collapsed (cs : List Char) : strip (collapsed cs) = [' '].intercalate (words cs) := by
  obtain ⟨lead, trail, hlead, htrail, heq⟩ := exists_collapsed cs
  rw [heq]
  by_cases hnil : words cs = []
  · have hall : (lead ++ trail).dropWhile isBlank = [] := by
      rw [List.dropWhile_append_of_pos (List.all_eq_true.mp hlead), List.dropWhile_eq_nil_iff]
      exact List.all_eq_true.mp htrail
    rw [hnil, List.intercalate_nil, List.append_nil, strip, stripOf, hall]
    rfl
  · obtain ⟨⟨c, rest, hfirst, hc⟩, front, d, hlast, hd⟩ := exists_ends (areWords_words cs) hnil
    exact strip_eq hlead htrail hfirst hc hlast hd

theorem partCount_strip_collapsed (cs : List Char) : partCount (strip (collapsed cs)) = (words cs).length := by
  rw [strip_collapsed, partCount]
  by_cases hnil : words cs = []
  · rw [hnil]
    rfl
  · obtain ⟨⟨c, rest, hfirst, -⟩, -⟩ := exists_ends (areWords_words cs) hnil
    have hblank : ∀ w ∈ words cs, ' ' ∉ w := by
      intro w hw hmem
      have := (areWords_words cs w hw).2 ' ' hmem
      cases this
    rw [if_neg (hfirst ▸ List.cons_ne_nil c rest), List.splitOn_intercalate ' ' hblank hnil]

end Parts

section Counts

variable {cs : List Char}

theorem stagedWordCount_eq (cs : List Char) : stagedWordCount cs = wordCount cs := by
  rw [stagedWordCount, withoutMatches_fragment?, partCount_strip_collapsed, wordCount]

/-- Without opening brackets, white space between two texts keeps the numbers of their words apart. -/
theorem wordCount_append {a b gap : List Char} (ha : '<' ∉ a) (hb : '<' ∉ b) (hgap : isAllBlank gap = true)
    (hne : gap ≠ []) : wordCount (a ++ gap ++ b) = wordCount a + wordCount b := by
  have hbracket : '<' ∉ gap := by
    intro hmem
    have hblank := List.all_eq_true.mp hgap '<' hmem
    cases hblank
  have hall : '<' ∉ a ++ gap ++ b := by
    rw [List.mem_append, List.mem_append, not_or, not_or]
    exact ⟨⟨ha, hbracket⟩, hb⟩
  rw [wordCount, wordCount, wordCount, dropFragments_of_not_mem hall, dropFragments_of_not_mem ha,
    dropFragments_of_not_mem hb, words_append_gap_append a b hgap hne, List.length_append]

/-- The number of words is the number of runs in what is kept of a text while its fragments are deleted from left to
right, which is one text only. It is also what the stages come to, and texts without opening brackets that are joined by
white space have as many words as both. -/
theorem wordCount_eq_runs (cs : List Char) :
    (∃ kept, Scans cs kept [] ∧ (∀ other, Scans cs other [] → other = kept) ∧
      ∃ runs : List Span, runs.Pairwise (fun s t => s.stop < t.start) ∧ (∀ s, s ∈ runs ↔ IsRun kept s) ∧
        wordCount cs = runs.length) ∧
    wordCount cs = stagedWordCount cs ∧
    ∀ gap more, '<' ∉ cs → '<' ∉ more → isAllBlank gap = true → gap ≠ [] →
      wordCount (cs ++ gap ++ more) = wordCount cs + wordCount more := by
  obtain ⟨runs, hordered, hruns, hwords⟩ := exists_runs (dropFragments 0 cs)
  have hcount : wordCount cs = runs.length := by rw [wordCount, hwords, List.length_map]
  refine ⟨⟨dropFragments 0 cs, scans_end_iff.mpr rfl, fun other => scans_end_iff.mp, runs, hordered, hruns, hcount⟩,
    (stagedWordCount_eq cs).symm, ?_⟩
  intro gap more hcs hmore hgap hne
  exact wordCount_append hcs hmore hgap hne

/-- Two words and a word with a tabulator between them. -/
theorem wordCount_eq_runs_joined : '<' ∉ "two words".toList ∧ '<' ∉ "more".toList ∧ isAllBlank ['\t'] = true ∧
    ['\t'] ≠ [] ∧ stagedWordCount "two words".toList = 2 ∧ wordCount ("two words".toList ++ ['\t'] ++ "more".toList) = 3 := by
  have hfirst : '<' ∉ "two words".toList := by decide
  have hmore : '<' ∉ "more".toList := by decide
  obtain ⟨-, hstaged, hjoined⟩ := wordCount_eq_runs "two words".toList
  have htwo : wordCount "two words".toList = 2 := by decide +kernel
  have hone : wordCount "more".toList = 1 := by decide +kernel
  refine ⟨hfirst, hmore, rfl, nofun, hstaged ▸ htwo, ?_⟩
  rw [hjoined ['\t'] "more".toList hfirst hmore rfl nofun, htwo, hone]

end Counts

end CommentGrade.ReadingTime
