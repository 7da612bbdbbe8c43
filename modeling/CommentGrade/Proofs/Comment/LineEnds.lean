import CommentGrade.Proofs.Comment.Locality

/-!
# Line comments and the ends of lines

A line ends with a line feed, or with a carriage return and a line feed. A carriage return belongs to no line comment and
no line starts behind it, so a line comment is the same whichever way the lines of its text end. It is only moved, by one
offset for each line above it.
-/
namespace CommentGrade.Comment

open Text

/-- The text with a carriage return before each line feed. -/
def withReturns (cs : List Char) : List Char := cs.flatMap fun c => if c = '\n' then ['\r', '\n'] else [c]

/-- A comment in a text each of whose lines got longer by one. -/
def movedByLines (c : Comment) : Comment := { c with start := c.start + c.line, stop := c.stop + c.line }

section Texts

theorem withReturns_append (a b : List Char) : withReturns (a ++ b) = withReturns a ++ withReturns b :=
  List.flatMap_append

theorem withReturns_of_not_mem {a : List Char} (h : '\n' ∉ a) : withReturns a = a := by
  induction a with
  | nil => rfl
  | cons c a ih =>
    rw [List.mem_cons, not_or] at h
    obtain ⟨hc, ha⟩ := h
    rw [withReturns, List.flatMap_cons, if_neg (Ne.symm hc), ← withReturns, ih ha, List.singleton_append]

theorem withReturns_line {a : List Char} (h : '\n' ∉ a) (b : List Char) :
    withReturns (a ++ '\n' :: b) = (a ++ ['\r']) ++ '\n' :: withReturns b := by
  rw [withReturns_append, withReturns_of_not_mem h, List.append_assoc]
  rfl

end Texts

section Hits

variable {head : LineHead} {tags : List String} {a : List Char}

/-- Behind a carriage return at the end of a text no line comment begins. -/
theorem lineHit?_behind_return (hproper : head.Proper) (a : List Char) :
    lineHit? head (tagTexts tags) (a ++ ['\r']) (a.length + 1) = none := by
  have hend : head.end? (a ++ ['\r']) (a.length + 1) = none := by
    cases head with
    | delimiter d =>
      have hocc : occursAt true (exactly d) (a ++ ['\r']) (a.length + 1) = false := by
        by_contra hocc
        have hle := length_le_of_occursAt (exactly_ne_nil hproper) (eq_true_of_ne_false hocc)
        have hpos : 0 < d.length := List.length_pos_iff.mpr hproper
        simp only [exactly_length, List.length_append, List.length_singleton] at hle
        omega
      rw [LineHead.end?, hocc, if_neg Bool.false_ne_true]
    | lineStart =>
      have hstart : isLineStart (a ++ ['\r']) (a.length + 1) = false := by
        simp [isLineStart, List.take_of_length_le]
      rw [LineHead.end?, hstart, if_neg Bool.false_ne_true]
  rw [lineHit?, hend, Option.map_none]

variable (hproper : head.Proper) (hdelimiter : ∀ d, head = .delimiter d → '\r' ∉ d)
  (htags : ∀ t ∈ tags, '\r' ∉ t.toList)
include hproper hdelimiter htags

theorem lineHits_return (a : List Char) :
    lineHits head (tagTexts tags) (a ++ ['\r']) = lineHits head (tagTexts tags) a := by
  have hlength : (a ++ ['\r']).length = a.length + 1 := by simp
  have hstop : ∀ i ≤ a.length, ∀ hit, lineHit? head (tagTexts tags) a i = some hit → hit.stop ≤ a.length + 1 := by
    intro i hi hit hhit
    obtain ⟨-, -, -, hle⟩ := lineHit?_bounds hproper hi hhit
    exact Nat.le_succ_of_le hle
  have hlast : hitsFrom (lineHit? head (tagTexts tags) (a ++ ['\r'])) LineHit.stop (a.length + 1) (a.length + 1) = [] := by
    rw [hitsFrom_of_none (lineHit?_behind_return hproper a), hitsFrom_of_lt (Nat.lt_succ_self _)]
  rw [lineHits, hlength, hitsFrom_append (Nat.le_succ _)
    (fun i hi => lineHit?_before (by decide) hproper hdelimiter htags hi) hstop (Nat.zero_le _), hlast, List.append_nil]
  rfl

theorem lineComments_return (skipsFirstLine : Bool) (a : List Char) :
    lineComments skipsFirstLine (head.expression tags) (a ++ ['\r']) =
      lineComments skipsFirstLine (head.expression tags) a := by
  rw [lineComments_eq hproper, lineComments_eq hproper, lineHits_return hproper hdelimiter htags]
  apply List.filterMap_congr
  intro hit hmem
  obtain ⟨i, -, hi, hhit⟩ := exists_of_mem_hitsFrom hmem
  obtain ⟨hstart, -, -, hstop⟩ := lineHit?_bounds hproper hi hhit
  exact found?_before (hstart ▸ hi) hstop

end Hits

section Extraction

variable {profile : Profile} {scope : Scope}

theorem extractOf_line_return (hs : profile.supported = true)
    (hdelimiter : ∀ d, profile.lineDelimiter = some d → '\r' ∉ d.toList) (htags : ∀ t ∈ scope.tags, '\r' ∉ t.toList)
    (a : List Char) : extractOf .line profile scope (a ++ ['\r']) = extractOf .line profile scope a := by
  rw [extractOf_line hs, extractOf_line hs]
  cases hhead : LineHead.ofProfile? profile scope.plainText with
  | none => rfl
  | some head =>
    refine lineComments_return (LineHead.proper_of_ofProfile? hhead) ?_ htags profile.skipsFirstLine a
    rintro d rfl
    obtain ⟨s, hsome, rfl⟩ := LineHead.delimiter_of_ofProfile? hhead
    exact hdelimiter s hsome

theorem map_movedByLines_of_line (hs : profile.supported = true) {a : List Char} (ha : '\n' ∉ a) :
    (extractOf .line profile scope a).map movedByLines = extractOf .line profile scope a := by
  have hcount : a.count '\n' = 0 := List.count_eq_zero_of_not_mem ha
  have hself : ∀ c ∈ extractOf .line profile scope a, movedByLines c = id c := by
    intro c hc
    have hline : c.line = 0 := Nat.le_zero.mp (hcount ▸ line_le_count hs hc)
    simp only [movedByLines, hline, Nat.add_zero, id_eq]
    rw [← hline]
  rw [List.map_congr_left hself, List.map_id]

end Extraction

/-- The line comments of a text whose lines end with a line feed stay the same if a carriage return comes before each
line feed, on the same lines and with the same words. Each is moved by the number of its line. -/
theorem extract_line_withReturns (profile : Profile) (scope : Scope) (cs : List Char) (hs : profile.supported = true)
    (hdelimiter : ∀ d, profile.lineDelimiter = some d → '\r' ∉ d.toList ∧ '\n' ∉ d.toList)
    (htags : ∀ t ∈ scope.tags, '\r' ∉ t.toList ∧ '\n' ∉ t.toList) (hcs : '\r' ∉ cs) :
    extractOf .line profile scope (withReturns cs) = (extractOf .line profile scope cs).map fun c =>
      { c with start := c.start + c.line, stop := c.stop + c.line } := by
  have hreturns : ∀ d, profile.lineDelimiter = some d → '\r' ∉ d.toList := fun d hd => (hdelimiter d hd).1
  have hfeeds : ∀ d, profile.lineDelimiter = some d → '\n' ∉ d.toList := fun d hd => (hdelimiter d hd).2
  have htagReturns : ∀ t ∈ scope.tags, '\r' ∉ t.toList := fun t ht => (htags t ht).1
  have htagFeeds : ∀ t ∈ scope.tags, '\n' ∉ t.toList := fun t ht => (htags t ht).2
  change _ = (extractOf .line profile scope cs).map movedByLines
  induction cs using lines_induction generalizing profile with
  | last a ha => rw [withReturns_of_not_mem ha, map_movedByLines_of_line hs ha]
  | line a b ha ih =>
    have hb : '\r' ∉ b := fun h => hcs (by simp [h])
    have hcount : a.count '\n' = 0 := List.count_eq_zero_of_not_mem ha
    have hcount' : (a ++ ['\r']).count '\n' = 0 := by simp [hcount]
    have hrest := ih (anywhere profile) hs hdelimiter hb hreturns hfeeds
    rw [withReturns_line ha, extractOf_line_append hs hfeeds htagFeeds, extractOf_line_append hs hfeeds htagFeeds,
      extractOf_line_return hs hreturns htagReturns, hrest, List.map_append, map_movedByLines_of_line hs ha, hcount,
      hcount', List.map_map, List.map_map]
    congr 1
    apply List.map_congr_left
    intro c _
    simp only [Function.comp_apply, moved, movedByLines, List.length_append, List.length_singleton]
    congr 1 <;> omega

/-- Behind three lines, one of them empty, the comment is moved by three. -/
theorem extract_line_withReturns_third :
    let profile : Profile := { Profile.line "#" with skipsFirstLine := true }
    let scope : Scope := { tags := ["TODO"] }
    let cs := "#!a\n# b\n\nc # TODO d".toList
    profile.supported = true ∧ (∀ d, profile.lineDelimiter = some d → '\r' ∉ d.toList ∧ '\n' ∉ d.toList) ∧
      (∀ t ∈ scope.tags, '\r' ∉ t.toList ∧ '\n' ∉ t.toList) ∧ '\r' ∉ cs ∧
      withReturns cs = "#!a\r\n# b\r\n\r\nc # TODO d".toList ∧
      extractOf .line profile scope (withReturns cs) = [⟨.line, 7, 8, 1, "b"⟩, ⟨.line, 20, 22, 3, " d"⟩] := by
  intro profile scope cs
  have hdelimiter : ∀ d, profile.lineDelimiter = some d → '\r' ∉ d.toList ∧ '\n' ∉ d.toList := by
    rintro d ⟨⟩
    decide
  have htags : ∀ t ∈ scope.tags, '\r' ∉ t.toList ∧ '\n' ∉ t.toList := by decide
  have hcs : '\r' ∉ cs := by decide
  have h := extract_line_withReturns profile scope cs rfl hdelimiter htags hcs
  exact ⟨rfl, hdelimiter, htags, hcs, by decide, h.trans (by decide +kernel)⟩

end CommentGrade.Comment
