import CommentGrade.Proofs.Comment.Runs
import CommentGrade.Proofs.Text.Seam

/-!
# Line comments are local to their lines

Neither a delimiter nor a tag without a line feed leads over one, and a line comment ends with its line. So the line
comments of two texts with a line feed between them are those of the first text, and behind them those of the second
one, moved. Only the start of the whole text may be left out.
-/
namespace CommentGrade.Comment

open Text

/-- A comment in a text that other text is put before. -/
def moved (offset lines : Nat) (c : Comment) : Comment :=
  { c with start := c.start + offset, stop := c.stop + offset, line := c.line + lines }

def LineHit.moved (offset : Nat) (h : LineHit) : LineHit :=
  ⟨offset + h.start, offset + h.body, offset + h.stop⟩

section Hits

variable {head : LineHead} {tags : List String} {a b : List Char} {x : Char} {i : Nat}

section Before

variable (hx : isInLine x = false) (hproper : head.Proper) (hdelimiter : ∀ d, head = .delimiter d → x ∉ d)
include hx hproper hdelimiter

theorem LineHead.end?_before (hi : i ≤ a.length) : head.end? (a ++ x :: b) i = head.end? a i := by
  obtain ⟨hgap, hletter⟩ := isGap_of_not_isInLine hx
  cases head with
  | lineStart => rw [LineHead.end?, LineHead.end?, isLineStart_before hi, skip_before hgap hi]
  | delimiter d =>
    have hsets := contains_exactly_eq_false hletter (hdelimiter d rfl)
    have hstep := advancing_stepOver true (exactly_ne_nil hproper) a
    have hlength : a.length ≤ (a ++ x :: b).length := by simp
    have hcopies : farthest (a ++ x :: b).length (stepOver true (exactly d) (a ++ x :: b)) i =
        farthest a.length (stepOver true (exactly d) a) i :=
      farthest_congr hlength (fun j hj => stepOver_before hsets hj) hstep hi
    rw [LineHead.end?, LineHead.end?, occursAt_before hsets hi, hcopies, skip_before hgap (farthest_le hstep hi)]

omit hproper hdelimiter in
theorem firstTag?_before {ts : List (List Char)} (hts : ∀ t ∈ ts, x ∉ t) (hi : i ≤ a.length) :
    firstTag? ts (a ++ x :: b) i = firstTag? ts a i := by
  apply findSome?_congr
  intro t ht
  exact stepOver_before (contains_exactly_eq_false (isGap_of_not_isInLine hx).2 (hts t ht)) hi

theorem lineHit?_before (htags : ∀ t ∈ tags, x ∉ t.toList) (hi : i ≤ a.length) :
    lineHit? head (tagTexts tags) (a ++ x :: b) i = lineHit? head (tagTexts tags) a i := by
  rw [lineHit?, lineHit?, LineHead.end?_before hx hproper hdelimiter hi]
  cases hj : head.end? a i with
  | none => rfl
  | some j =>
    have hle := LineHead.end?_le hproper hi hj
    have hstep := advancing_firstTag? tags a
    have hlength : a.length ≤ (a ++ x :: b).length := by simp
    have hts : ∀ t ∈ tagTexts tags, x ∉ t := by
      intro t ht
      obtain ⟨s, hs, rfl⟩ := exists_of_mem_tagTexts ht
      exact htags s hs
    have hbody : farthest (a ++ x :: b).length (firstTag? (tagTexts tags) (a ++ x :: b)) j =
        farthest a.length (firstTag? (tagTexts tags) a) j :=
      farthest_congr hlength (fun k hk => firstTag?_before hx hts hk) hstep hle
    simp only [Option.map_some, hbody, skip_before hx (farthest_le hstep hle)]

end Before

theorem LineHead.end?_behind (head : LineHead) (a b : List Char) (i : Nat) :
    head.end? (a ++ '\n' :: b) (a.length + 1 + i) = (head.end? b i).map (a.length + 1 + ·) := by
  cases head with
  | lineStart =>
    rw [LineHead.end?, LineHead.end?, isLineStart_behind, skip_behind]
    split_ifs <;> rfl
  | delimiter d =>
    have hlength : (a ++ '\n' :: b).length = a.length + 1 + b.length := by simp; omega
    have hcopies : farthest (a ++ '\n' :: b).length (stepOver true (exactly d) (a ++ '\n' :: b)) (a.length + 1 + i) =
        a.length + 1 + farthest b.length (stepOver true (exactly d) b) i := by
      rw [hlength]
      exact farthest_moved (stepOver_behind a b)
    rw [LineHead.end?, LineHead.end?, occursAt_behind, hcopies, skip_behind]
    split_ifs <;> rfl

theorem firstTag?_behind (ts : List (List Char)) (a b : List Char) (i : Nat) :
    firstTag? ts (a ++ '\n' :: b) (a.length + 1 + i) = (firstTag? ts b i).map (a.length + 1 + ·) := by
  rw [firstTag?, firstTag?, List.map_findSome?]
  simp only [stepOver_behind]
  rfl

theorem lineHit?_behind (head : LineHead) (ts : List (List Char)) (a b : List Char) (i : Nat) :
    lineHit? head ts (a ++ '\n' :: b) (a.length + 1 + i) =
      (lineHit? head ts b i).map (LineHit.moved (a.length + 1)) := by
  rw [lineHit?, lineHit?, LineHead.end?_behind, Option.map_map, Option.map_map]
  congr 1
  funext j
  have hlength : (a ++ '\n' :: b).length = a.length + 1 + b.length := by simp; omega
  have hbody : farthest (a ++ '\n' :: b).length (firstTag? ts (a ++ '\n' :: b)) (a.length + 1 + j) =
      a.length + 1 + farthest b.length (firstTag? ts b) j := by
    rw [hlength]
    exact farthest_moved (firstTag?_behind ts a b)
  simp only [Function.comp_apply, hbody, skip_behind, LineHit.moved]

/-- The search for line comments begins anew behind a line feed. -/
theorem lineHits_append (hproper : head.Proper) (hdelimiter : ∀ d, head = .delimiter d → '\n' ∉ d)
    (htags : ∀ t ∈ tags, '\n' ∉ t.toList) (a b : List Char) :
    lineHits head (tagTexts tags) (a ++ '\n' :: b) = lineHits head (tagTexts tags) a ++
      (lineHits head (tagTexts tags) b).map (LineHit.moved (a.length + 1)) := by
  have hlength : (a ++ '\n' :: b).length = a.length + 1 + b.length := by simp; omega
  have hstop : ∀ i ≤ a.length, ∀ hit, lineHit? head (tagTexts tags) a i = some hit → hit.stop ≤ a.length + 1 := by
    intro i hi hit hhit
    obtain ⟨-, -, -, hle⟩ := lineHit?_bounds hproper hi hhit
    exact Nat.le_succ_of_le hle
  have hbehind : hitsFrom (lineHit? head (tagTexts tags) (a ++ '\n' :: b)) LineHit.stop (a.length + 1 + b.length)
      (a.length + 1 + 0) = (lineHits head (tagTexts tags) b).map (LineHit.moved (a.length + 1)) :=
    hitsFrom_moved (lineHit?_behind head (tagTexts tags) a b) fun _ => rfl
  rw [Nat.add_zero] at hbehind
  rw [lineHits, hitsFrom_append (by simp) (fun i hi => lineHit?_before (by decide) hproper hdelimiter htags hi) hstop
    (Nat.zero_le _), hlength, hbehind]
  rfl

end Hits

section Found

variable {head : LineHead} {tags : List String} {skipsFirstLine : Bool} {a b : List Char} {x : Char}

theorem found?_before {hit : LineHit} (hstart : hit.start ≤ a.length) (hstop : hit.stop ≤ a.length) :
    hit.found? skipsFirstLine (a ++ x :: b) = hit.found? skipsFirstLine a := by
  simp only [LineHit.found?, LineHit.comment?, ofRange?, lineAt_before hstart, between_before hstop]

theorem found?_behind (skipsFirstLine : Bool) (a b : List Char) (hit : LineHit) :
    (hit.moved (a.length + 1)).found? skipsFirstLine (a ++ '\n' :: b) =
      (hit.found? false b).map (moved (a.length + 1) (a.count '\n' + 1)) := by
  have hstart : (a.length + 1 + hit.start == 0) = false := beq_false_of_ne (by omega)
  have hlt : a.length + 1 + hit.body < a.length + 1 + hit.stop ↔ hit.body < hit.stop := Nat.add_lt_add_iff_left
  simp only [LineHit.found?, LineHit.moved, LineHit.comment?, ofRange?, hstart, lineAt_behind, between_behind, hlt,
    Bool.and_false, Bool.false_and, Bool.false_eq_true, if_false]
  split_ifs
  · simp only [Option.map_some, moved, Nat.add_comm (a.length + 1)]
  · rfl

theorem lineComments_append (hproper : head.Proper) (hdelimiter : ∀ d, head = .delimiter d → '\n' ∉ d)
    (htags : ∀ t ∈ tags, '\n' ∉ t.toList) (skipsFirstLine : Bool) (a b : List Char) :
    lineComments skipsFirstLine (head.expression tags) (a ++ '\n' :: b) =
      lineComments skipsFirstLine (head.expression tags) a ++
        (lineComments false (head.expression tags) b).map (moved (a.length + 1) (a.count '\n' + 1)) := by
  rw [lineComments_eq hproper, lineComments_eq hproper, lineComments_eq hproper,
    lineHits_append hproper hdelimiter htags, List.filterMap_append, List.filterMap_map, List.map_filterMap]
  congr 1
  · apply List.filterMap_congr
    intro hit hmem
    obtain ⟨i, -, hi, hhit⟩ := exists_of_mem_hitsFrom hmem
    obtain ⟨hstart, -, -, hstop⟩ := lineHit?_bounds hproper hi hhit
    exact found?_before (hstart ▸ hi) hstop
  · apply List.filterMap_congr
    intro hit _
    exact found?_behind skipsFirstLine a b hit

end Found

section Extraction

variable {profile : Profile} {scope : Scope}

theorem extractOf_line (hs : profile.supported = true) (scope : Scope) (cs : List Char) :
    extractOf .line profile scope cs = ((LineHead.ofProfile? profile scope.plainText).map fun head =>
      lineComments profile.skipsFirstLine (head.expression scope.tags) cs).getD [] := by
  rw [extractOf, extract_filter_kind hs, ← runOf_line hs]

theorem wellPlaced_of_mem_line (hs : profile.supported = true) {cs : List Char} {c : Comment}
    (h : c ∈ extractOf .line profile scope cs) : WellPlaced cs c := by
  rw [extractOf, extract_filter_kind hs] at h
  exact (isRun_line hs scope cs).wellPlaced c h

theorem line_le_count (hs : profile.supported = true) {cs : List Char} {c : Comment}
    (h : c ∈ extractOf .line profile scope cs) : c.line ≤ cs.count '\n' :=
  (wellPlaced_of_mem_line hs h).line_le_last

/-- A profile whose line comments may also be at the start of a text. -/
def anywhere (profile : Profile) : Profile := { profile with skipsFirstLine := false }

theorem extractOf_line_append (hs : profile.supported = true)
    (hdelimiter : ∀ d, profile.lineDelimiter = some d → '\n' ∉ d.toList) (htags : ∀ t ∈ scope.tags, '\n' ∉ t.toList)
    (a b : List Char) : extractOf .line profile scope (a ++ '\n' :: b) = extractOf .line profile scope a ++
      (extractOf .line (anywhere profile) scope b).map (moved (a.length + 1) (a.count '\n' + 1)) := by
  have hs' : (anywhere profile).supported = true := hs
  have hsame : LineHead.ofProfile? (anywhere profile) scope.plainText =
      LineHead.ofProfile? profile scope.plainText := rfl
  rw [extractOf_line hs, extractOf_line hs, extractOf_line hs', hsame]
  cases hhead : LineHead.ofProfile? profile scope.plainText with
  | none => rfl
  | some head =>
    have hproper := LineHead.proper_of_ofProfile? hhead
    refine lineComments_append hproper ?_ htags profile.skipsFirstLine a b
    rintro d rfl
    obtain ⟨s, hsome, rfl⟩ := LineHead.delimiter_of_ofProfile? hhead
    exact hdelimiter s hsome

theorem extractOf_nil (hs : profile.supported = true) : extractOf .line profile scope [] = [] := by
  rw [List.eq_nil_iff_forall_not_mem]
  intro c hc
  have hplaced := wellPlaced_of_mem_line hs hc
  have hlt := hplaced.start_lt_stop
  have hle := hplaced.stop_le_length
  rw [List.length_nil] at hle
  omega

theorem moved_moved (k l m n : Nat) (c : Comment) : moved k l (moved m n c) = moved (m + k) (n + l) c := by
  simp only [moved, Nat.add_assoc]

variable (hs : profile.supported = true) (hdelimiter : ∀ d, profile.lineDelimiter = some d → '\n' ∉ d.toList)
  (htags : ∀ t ∈ scope.tags, '\n' ∉ t.toList)
include hs hdelimiter htags

theorem filter_line_pos {first after : List Char} (hfirst : '\n' ∉ first)
    (hafter : after.head?.all (· == '\n') = true) :
    (extractOf .line profile scope (first ++ after)).filter (0 < ·.line) =
      (extractOf .line (anywhere profile) scope after.tail).map (moved (first.length + 1) 1) := by
  have hcount : first.count '\n' = 0 := List.count_eq_zero_of_not_mem hfirst
  have hnone : (extractOf .line profile scope first).filter (0 < ·.line) = [] := by
    rw [List.filter_eq_nil_iff]
    intro c hc
    have hline := line_le_count hs hc
    simp only [decide_eq_true_eq]
    omega
  have hs' : (anywhere profile).supported = true := hs
  cases after with
  | nil => rw [List.append_nil, hnone, List.tail_nil, extractOf_nil hs', List.map_nil]
  | cons c rest =>
    obtain rfl : c = '\n' := by simpa using hafter
    rw [extractOf_line_append hs hdelimiter htags, List.filter_append, hnone, List.nil_append, hcount]
    apply List.filter_eq_self.mpr
    intro c hc
    obtain ⟨d, -, rfl⟩ := List.mem_map.mp hc
    simp [moved]

/-- The comments above a line are those of the text above it. -/
theorem filter_line_lt {before : List Char} (hbefore : before.getLast?.all (· == '\n') = true) (rest : List Char) :
    (extractOf .line profile scope (before ++ rest)).filter (·.line < before.count '\n') =
      extractOf .line profile scope before.dropLast := by
  rcases List.eq_nil_or_concat' before with rfl | ⟨a, c, rfl⟩
  · rw [List.dropLast_nil, extractOf_nil hs, List.filter_eq_nil_iff]
    simp
  · obtain rfl : c = '\n' := by simpa using hbefore
    have hcount : (a ++ ['\n']).count '\n' = a.count '\n' + 1 := by simp
    have hsplit : a ++ ['\n'] ++ rest = a ++ '\n' :: rest := by simp
    rw [List.dropLast_concat, hcount, hsplit, extractOf_line_append hs hdelimiter htags, List.filter_append]
    have habove : (extractOf .line profile scope a).filter (·.line < a.count '\n' + 1) =
        extractOf .line profile scope a := by
      apply List.filter_eq_self.mpr
      intro c hc
      have hline := line_le_count hs hc
      simp only [decide_eq_true_eq]
      omega
    have hbelow : ((extractOf .line (anywhere profile) scope rest).map
        (moved (a.length + 1) (a.count '\n' + 1))).filter (·.line < a.count '\n' + 1) = [] := by
      rw [List.filter_eq_nil_iff]
      intro c hc hmoved
      obtain ⟨d, -, rfl⟩ := List.mem_map.mp hc
      have hlt : d.line + (a.count '\n' + 1) < a.count '\n' + 1 := of_decide_eq_true hmoved
      omega
    rw [habove, hbelow, List.append_nil]

theorem filter_line_gt {before first after : List Char} (hbefore : before.getLast?.all (· == '\n') = true)
    (hfirst : '\n' ∉ first) (hafter : after.head?.all (· == '\n') = true) :
    (extractOf .line profile scope (before ++ first ++ after)).filter (before.count '\n' < ·.line) =
      (extractOf .line (anywhere profile) scope after.tail).map
        (moved (first.length + 1 + before.length) (before.count '\n' + 1)) := by
  rcases List.eq_nil_or_concat' before with rfl | ⟨a, c, rfl⟩
  · exact filter_line_pos hs hdelimiter htags hfirst hafter
  · obtain rfl : c = '\n' := by simpa using hbefore
    have hcount : (a ++ ['\n']).count '\n' = a.count '\n' + 1 := by simp
    have hsplit : a ++ ['\n'] ++ first ++ after = a ++ '\n' :: (first ++ after) := by simp
    rw [hcount, hsplit, extractOf_line_append hs hdelimiter htags, List.filter_append]
    have habove : (extractOf .line profile scope a).filter (a.count '\n' + 1 < ·.line) = [] := by
      rw [List.filter_eq_nil_iff]
      intro c hc
      have hline := line_le_count hs hc
      simp only [decide_eq_true_eq]
      omega
    have hbelow : (fun c : Comment => decide (a.count '\n' + 1 < c.line)) ∘ moved (a.length + 1) (a.count '\n' + 1) =
        fun c => decide (0 < c.line) := by
      funext c
      simp [moved]
    have hs' : (anywhere profile).supported = true := hs
    have hrest : (extractOf .line (anywhere profile) scope (first ++ after)).filter (0 < ·.line) =
        (extractOf .line (anywhere profile) scope after.tail).map (moved (first.length + 1) 1) :=
      filter_line_pos hs' hdelimiter htags hfirst hafter
    rw [habove, List.nil_append, List.filter_map, hbelow, hrest, List.map_map]
    apply List.map_congr_left
    intro c _
    rw [Function.comp_apply, moved_moved, List.length_append, List.length_singleton, Nat.add_comm 1]

end Extraction

/-- The line comments of two texts with a line feed between them are those of the first, and those of the second as if
nothing came before it, moved. So another line in the place of one changes no line comment above or below it; those below
are moved by as much as the line got longer. -/
theorem extract_line_append (profile : Profile) (scope : Scope) (hs : profile.supported = true)
    (hdelimiter : ∀ d, profile.lineDelimiter = some d → '\n' ∉ d.toList)
    (htags : ∀ t ∈ scope.tags, '\n' ∉ t.toList) :
    let found := extractOf .line profile scope
    (∀ a b, found (a ++ '\n' :: b) = found a ++
      (extractOf .line { profile with skipsFirstLine := false } scope b).map
        (moved (a.length + 1) (a.count '\n' + 1))) ∧
    ∀ before old new after, '\n' ∉ old → '\n' ∉ new → before.getLast?.all (· == '\n') = true →
      after.head?.all (· == '\n') = true →
      let line := before.count '\n'
      (found (before ++ old ++ after)).filter (·.line < line) =
        (found (before ++ new ++ after)).filter (·.line < line) ∧
      ((found (before ++ old ++ after)).filter (line < ·.line)).map (moved new.length 0) =
        ((found (before ++ new ++ after)).filter (line < ·.line)).map (moved old.length 0) := by
  intro found
  refine ⟨extractOf_line_append hs hdelimiter htags, ?_⟩
  intro before old new after hold hnew hbefore hafter line
  constructor
  · simp only [found, line, List.append_assoc, filter_line_lt hs hdelimiter htags hbefore]
  · simp only [found, line, filter_line_gt hs hdelimiter htags hbefore hold hafter,
      filter_line_gt hs hdelimiter htags hbefore hnew hafter, List.map_map]
    apply List.map_congr_left
    intro c _
    have hlength : old.length + 1 + before.length + new.length = new.length + 1 + before.length + old.length := by omega
    rw [Function.comp_apply, Function.comp_apply, moved_moved, moved_moved, hlength]

/-- The first line of a text is no comment, the same line further down is one. -/
theorem extract_line_append_first :
    let profile : Profile := { Profile.line "#" with skipsFirstLine := true }
    let scope : Scope := { tags := ["TODO"] }
    let found := extractOf .line profile scope
    profile.supported = true ∧ (∀ d, profile.lineDelimiter = some d → '\n' ∉ d.toList) ∧
      (∀ t ∈ scope.tags, '\n' ∉ t.toList) ∧
      found ("# a".toList ++ '\n' :: "# TODO a".toList) = [⟨.line, 10, 12, 1, " a"⟩] ∧
      '\n' ∉ "# a".toList ∧ '\n' ∉ "b # c".toList ∧ "# b\n".toList.getLast?.all (· == '\n') = true ∧
      "\n#c".toList.head?.all (· == '\n') = true ∧
      ((found ("# b\n".toList ++ "# a".toList ++ "\n#c".toList)).filter (1 < ·.line)).map (moved 5 0) =
        ((found ("# b\n".toList ++ "b # c".toList ++ "\n#c".toList)).filter (1 < ·.line)).map (moved 3 0) := by
  intro profile scope found
  have hdelimiter : ∀ d, profile.lineDelimiter = some d → '\n' ∉ d.toList := by
    rintro d ⟨⟩
    decide
  have htags : ∀ t ∈ scope.tags, '\n' ∉ t.toList := by decide
  have h := extract_line_append profile scope rfl hdelimiter htags
  refine ⟨rfl, hdelimiter, htags, ?_, by decide, by decide, by decide, by decide, ?_⟩
  · exact (h.1 "# a".toList "# TODO a".toList).trans (by decide +kernel)
  · exact (h.2 "# b\n".toList "# a".toList "b # c".toList "\n#c".toList (by decide) (by decide) (by decide)
      (by decide)).2

end CommentGrade.Comment
