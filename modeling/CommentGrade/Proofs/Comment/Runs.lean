import CommentGrade.Proofs.Comment.BlockScan
import CommentGrade.Proofs.Comment.LineScan

/-!
# The runs of an extraction

An extraction is a run of line comments, one of blocks and one of doc blocks. Each comment of a run quotes the text
between its offsets and stands on a line of the text that is not behind its start; the comments of a run follow each
other without overlap. A line comment never leaves its line.
-/
namespace CommentGrade.Comment

open Text

variable {cs : List Char}

/-- What a comment says about the text it was found in. -/
structure WellPlaced (cs : List Char) (c : Comment) : Prop where
  start_lt_stop : c.start < c.stop
  stop_le_length : c.stop ≤ cs.length
  text_eq : c.text.toList = between cs c.start c.stop
  line_le_start : c.line ≤ lineAt cs c.start
  line_le_last : c.line ≤ cs.count '\n'

/-- Comments of one kind in the order of a text. -/
structure IsRun (kind : CommentKind) (cs : List Char) (comments : List Comment) : Prop where
  kind_eq : ∀ c ∈ comments, c.kind = kind
  wellPlaced : ∀ c ∈ comments, WellPlaced cs c
  inOrder : comments.Pairwise fun a b => a.stop ≤ b.start

theorem isRun_nil (kind : CommentKind) (cs : List Char) : IsRun kind cs [] where
  kind_eq := by simp
  wellPlaced := by simp
  inOrder := List.Pairwise.nil

theorem wellPlaced_of_ofRange? {kind : CommentKind} {i start stop : Nat} {c : Comment}
    (hi : i ≤ start) (hstop : stop ≤ cs.length)
    (h : ofRange? kind cs (lineAt cs i) start stop = some c) : WellPlaced cs c := by
  obtain ⟨hlt, rfl⟩ := ofRange?_eq_some_iff.mp h
  exact {
    start_lt_stop := hlt
    stop_le_length := hstop
    text_eq := String.toList_ofList
    line_le_start := lineAt_mono hi
    line_le_last := lineAt_le_count cs i }

theorem lineAt_of_stepOver {w : List Char} (hw : '\n' ∉ w) {i j : Nat}
    (h : stepOver true (exactly w) cs i = some j) : lineAt cs j = lineAt cs i := by
  simp only [stepOver, Option.ite_none_right_eq_some, Option.some.injEq] at h
  obtain ⟨hocc, rfl⟩ := h
  exact lineAt_add_of_occursAt (contains_exactly_eq_false (by decide) hw) hocc

section Lines

variable {head : LineHead} {tags : List String} {skipsFirstLine : Bool} {hit : LineHit} {c : Comment}

theorem ofRange?_of_found? (h : hit.found? skipsFirstLine cs = some c) :
    ofRange? .line cs (lineAt cs hit.start) hit.body hit.stop = some c := by
  unfold LineHit.found? at h
  split_ifs at h with hskip
  exact h

theorem exists_lineHit (hhead : head.Proper)
    (h : c ∈ lineComments skipsFirstLine (head.expression tags) cs) :
    ∃ i ≤ cs.length, ∃ hit, lineHit? head (tagTexts tags) cs i = some hit ∧
      ofRange? .line cs (lineAt cs hit.start) hit.body hit.stop = some c := by
  rw [lineComments_eq hhead] at h
  obtain ⟨hit, hmem, hfound⟩ := List.mem_filterMap.mp h
  obtain ⟨i, -, hi, hhit⟩ := exists_of_mem_hitsFrom hmem
  exact ⟨i, hi, hit, hhit, ofRange?_of_found? hfound⟩

theorem isRun_lineComments (hhead : head.Proper) (tags : List String) (skipsFirstLine : Bool)
    (cs : List Char) :
    IsRun .line cs (lineComments skipsFirstLine (head.expression tags) cs) where
  kind_eq := fun c hc => kind_of_mem_lineComments hc
  wellPlaced := by
    intro c hc
    obtain ⟨i, hi, hit, hhit, hrange⟩ := exists_lineHit hhead hc
    obtain ⟨hstart, hbody, -, hstop⟩ := lineHit?_bounds hhead hi hhit
    exact wellPlaced_of_ofRange? (hstart ▸ hbody) hstop hrange
  inOrder := by
    rw [lineComments_eq hhead]
    refine pairwise_hitsFrom.filterMap _ ?_
    rintro a b ⟨i, hai, hi, hb⟩ c hc d hd
    obtain ⟨-, hbody, -⟩ := lineHit?_bounds hhead hi hb
    obtain ⟨-, rfl⟩ := ofRange?_eq_some_iff.mp (ofRange?_of_found? hc)
    obtain ⟨-, rfl⟩ := ofRange?_eq_some_iff.mp (ofRange?_of_found? hd)
    exact Nat.le_trans hai hbody

theorem isInLine_of_mem_lineComments (hhead : head.Proper)
    (h : c ∈ lineComments skipsFirstLine (head.expression tags) cs) :
    ∀ x ∈ c.text.toList, isInLine x = true := by
  obtain ⟨i, hi, hit, hhit, hrange⟩ := exists_lineHit hhead h
  obtain ⟨j, -, rfl⟩ := Option.map_eq_some_iff.mp hhit
  obtain ⟨-, rfl⟩ := ofRange?_eq_some_iff.mp hrange
  intro x hx
  rw [String.toList_ofList, between_skip] at hx
  exact List.all_eq_true.mp List.all_takeWhile x hx

theorem exists_of_mem_tagTexts {t : List Char} (h : t ∈ tagTexts tags) : ∃ s ∈ tags, s.toList = t := by
  obtain ⟨s, hs, rfl⟩ := List.mem_map.mp h
  rw [distinctTags, List.mem_eraseDups, List.mem_filter] at hs
  exact ⟨s, hs.1, rfl⟩

theorem LineHead.lineAt_of_end? (hdelimiter : ∀ d, head = .delimiter d → '\n' ∉ d) {i j : Nat}
    (h : head.end? cs i = some j) : lineAt cs j = lineAt cs i := by
  cases head with
  | delimiter d =>
    simp only [LineHead.end?, Option.ite_none_right_eq_some, Option.some.injEq] at h
    obtain ⟨-, rfl⟩ := h
    rw [lineAt_skip (by decide)]
    refine farthest_induction (P := fun k => lineAt cs k = lineAt cs i) ?_ rfl
    intro k l hkl hk
    exact (lineAt_of_stepOver (hdelimiter d rfl) hkl).trans hk
  | lineStart =>
    simp only [LineHead.end?, Option.ite_none_right_eq_some, Option.some.injEq] at h
    obtain ⟨-, rfl⟩ := h
    exact lineAt_skip (by decide) cs i

/-- Without line feeds in the delimiter and the tags, a line comment begins on the line of its head. -/
theorem line_eq_of_mem_lineComments (hhead : head.Proper)
    (hdelimiter : ∀ d, head = .delimiter d → '\n' ∉ d) (htags : ∀ t ∈ tags, '\n' ∉ t.toList)
    (h : c ∈ lineComments skipsFirstLine (head.expression tags) cs) :
    c.line = lineAt cs c.start := by
  obtain ⟨i, hi, hit, hhit, hrange⟩ := exists_lineHit hhead h
  obtain ⟨j, hj, rfl⟩ := Option.map_eq_some_iff.mp hhit
  obtain ⟨-, rfl⟩ := ofRange?_eq_some_iff.mp hrange
  have hbody : lineAt cs (farthest cs.length (firstTag? (tagTexts tags) cs) j) = lineAt cs j := by
    refine farthest_induction (P := fun k => lineAt cs k = lineAt cs j) ?_ rfl
    intro k l hkl hk
    obtain ⟨t, ht, hstep⟩ := List.exists_of_findSome?_eq_some hkl
    obtain ⟨s, hs, rfl⟩ := exists_of_mem_tagTexts ht
    exact (lineAt_of_stepOver (htags s hs) hstep).trans hk
  exact (hbody.trans (LineHead.lineAt_of_end? hdelimiter hj)).symm

end Lines

section Blocks

variable {b : BlockForm}

theorem isRun_blockHits (hne : b.unit ≠ []) (kind : CommentKind) (cs : List Char) :
    IsRun kind cs ((b.blockHits cs).filterMap (BlockHit.comment? kind cs)) where
  kind_eq := by
    intro c hc
    obtain ⟨hit, -, hcomment⟩ := List.mem_filterMap.mp hc
    obtain ⟨-, rfl⟩ := ofRange?_eq_some_iff.mp hcomment
    rfl
  wellPlaced := by
    intro c hc
    obtain ⟨hit, hmem, hcomment⟩ := List.mem_filterMap.mp hc
    obtain ⟨i, -, -, hhit⟩ := exists_of_mem_hitsFrom hmem
    obtain ⟨-, -, -, hbody, -, hstop⟩ := BlockForm.blockHit?_bounds hne hhit
    have hcloser : hit.closer ≤ cs.length := Nat.le_trans (Nat.le_add_right _ _) hstop
    exact wellPlaced_of_ofRange? (Nat.le_of_lt hbody) hcloser hcomment
  inOrder := by
    refine pairwise_hitsFrom.filterMap _ ?_
    rintro a b ⟨i, hai, -, hb⟩ c hc d hd
    obtain ⟨-, -, hopener, hbody, -⟩ := BlockForm.blockHit?_bounds hne hb
    obtain ⟨-, rfl⟩ := ofRange?_eq_some_iff.mp hc
    obtain ⟨-, rfl⟩ := ofRange?_eq_some_iff.mp hd
    simp only [BlockForm.stop] at hai
    change a.closer ≤ b.body
    omega

end Blocks

section Extraction

variable {profile : Profile} (hs : profile.supported = true) (scope : Scope) (cs : List Char)
include hs

theorem runOf_line : runOf (lineComments profile.skipsFirstLine · cs) (Patterns.ofProfile profile scope).line =
    ((LineHead.ofProfile? profile scope.plainText).map fun head =>
      lineComments profile.skipsFirstLine (head.expression scope.tags) cs).getD [] := by
  rw [LineHead.ofProfile_line hs, runOf, Option.map_map]
  rfl

theorem isRun_line :
    IsRun .line cs (runOf (lineComments profile.skipsFirstLine · cs) (Patterns.ofProfile profile scope).line) := by
  rw [runOf_line hs]
  cases hhead : LineHead.ofProfile? profile scope.plainText with
  | none => exact isRun_nil _ _
  | some head => exact isRun_lineComments (LineHead.proper_of_ofProfile? hhead) _ _ _

theorem isRun_block :
    IsRun .block cs (runOf (blockComments .block · cs) (Patterns.ofProfile profile scope).block) := by
  simp only [Patterns.ofProfile, hs, if_true]
  split_ifs
  · cases profile.block with
    | none => exact isRun_nil _ _
    | some d =>
      simp only [runOf, Option.map_some, Option.getD_some, blockComments_ofDelimiters]
      exact isRun_blockHits (ofDelimiters_unit_ne_nil d) _ _
  · exact isRun_nil _ _

theorem isRun_doc :
    IsRun .doc cs (runOf (blockComments .doc · cs) (Patterns.ofProfile profile scope).doc) := by
  simp only [Patterns.ofProfile, hs, if_true]
  split_ifs
  · simp only [runOf, Option.map_some, Option.getD_some, blockComments_doc]
    exact isRun_blockHits (by decide) _ _
  · exact isRun_nil _ _

end Extraction

/-- Whatever its kind, a comment that is extracted is well placed. -/
theorem wellPlaced_of_mem_extract {profile : Profile} {scope : Scope} {c : Comment}
    (h : c ∈ extract profile (Patterns.ofProfile profile scope) cs) : WellPlaced cs c := by
  cases hs : profile.supported with
  | false =>
    rw [extract, hs] at h
    cases h
  | true =>
    rw [extract_eq_runs hs, List.mem_append, List.mem_append] at h
    rcases h with (hline | hblock) | hdoc
    · exact (isRun_line hs scope cs).wellPlaced c hline
    · exact (isRun_block hs scope cs).wellPlaced c hblock
    · exact (isRun_doc hs scope cs).wellPlaced c hdoc

theorem LineHead.delimiter_of_ofProfile? {profile : Profile} {plainText : Bool} {d : List Char}
    (h : LineHead.ofProfile? profile plainText = some (.delimiter d)) :
    ∃ s, profile.lineDelimiter = some s ∧ s.toList = d := by
  unfold LineHead.ofProfile? at h
  split_ifs at h with hplain
  · exact absurd (Option.some.inj h) (by simp)
  · obtain ⟨s, hs, hd⟩ := Option.map_eq_some_iff.mp h
    exact ⟨s, (Option.filter_eq_some_iff.mp hs).1, LineHead.delimiter.inj hd⟩

/-- An extraction is a run of line comments, a run of blocks and a run of doc blocks. A line comment has no end of a
line in it, and stands on the line of its start if neither the delimiter nor a tag leads to another line. -/
theorem extract_isRun (profile : Profile) (scope : Scope) (cs : List Char) :
    ∃ lines blocks docs : List Comment,
      extract profile (Patterns.ofProfile profile scope) cs = lines ++ blocks ++ docs ∧
      IsRun .line cs lines ∧ IsRun .block cs blocks ∧ IsRun .doc cs docs ∧
      (∀ c ∈ lines, '\r' ∉ c.text.toList ∧ '\n' ∉ c.text.toList) ∧
      ((∀ d, profile.lineDelimiter = some d → '\n' ∉ d.toList) →
        (∀ t ∈ scope.tags, '\n' ∉ t.toList) → ∀ c ∈ lines, c.line = lineAt cs c.start) := by
  cases hs : profile.supported with
  | false =>
    refine ⟨[], [], [], ?_, isRun_nil _ _, isRun_nil _ _, isRun_nil _ _, by simp, by simp⟩
    simp [extract, hs]
  | true =>
    refine ⟨_, _, _, extract_eq_runs hs _ cs, isRun_line hs scope cs, isRun_block hs scope cs,
      isRun_doc hs scope cs, ?_⟩
    rw [runOf_line hs]
    cases hhead : LineHead.ofProfile? profile scope.plainText with
    | none => exact ⟨by simp, by simp⟩
    | some head =>
      have hproper := LineHead.proper_of_ofProfile? hhead
      refine ⟨?_, ?_⟩
      · intro c hc
        have hline := isInLine_of_mem_lineComments hproper hc
        exact ⟨fun hr => absurd (hline _ hr) (by decide), fun hn => absurd (hline _ hn) (by decide)⟩
      · intro hdelimiter htags c hc
        refine line_eq_of_mem_lineComments hproper ?_ htags hc
        rintro d rfl
        obtain ⟨s, hsome, rfl⟩ := LineHead.delimiter_of_ofProfile? hhead
        exact hdelimiter s hsome

end CommentGrade.Comment
