import CommentGrade.Proofs.Comment.Locality

/-!
# The comment that opens a text

Where the start of a text is an instruction to the system, the line comment whose head is the first character of the
text does not count. This takes one comment away at most: all others stay, in the same places and in the same order,
those further on in the first line and the blocks that begin on it included.
-/
namespace CommentGrade.Comment

open Text

section Hits

variable {d : List Char} {tags : List String} {cs : List Char}

theorem start_of_mem_hitsFrom {hit : LineHit} {cursor : Nat} (hd : d ≠ [])
    (h : hit ∈ hitsFrom (lineHit? (.delimiter d) (tagTexts tags) cs) LineHit.stop cs.length cursor) :
    cursor ≤ hit.start := by
  have hproper : (LineHead.delimiter d).Proper := hd
  obtain ⟨i, hcursor, hi, hhit⟩ := exists_of_mem_hitsFrom h
  have hstart := (lineHit?_bounds hproper hi hhit).1
  omega

theorem lineHits_of_begins (hd : d ≠ []) (tags : List String) (hbegins : occursAt true (exactly d) cs 0 = true) :
    ∃ hit later, lineHits (.delimiter d) (tagTexts tags) cs = hit :: later ∧ hit.start = 0 ∧
      ∀ h ∈ later, 0 < h.start := by
  have hproper : (LineHead.delimiter d).Proper := hd
  obtain ⟨hit, hhit⟩ : ∃ hit, lineHit? (.delimiter d) (tagTexts tags) cs 0 = some hit := by
    simp only [lineHit?, LineHead.end?, hbegins, if_true, Option.map_some]
    exact ⟨_, rfl⟩
  refine ⟨hit, _, hitsFrom_of_some (Nat.zero_le _) hhit, (lineHit?_bounds hproper (Nat.zero_le _) hhit).1, ?_⟩
  intro h hmem
  have hstart := start_of_mem_hitsFrom hd hmem
  omega

theorem start_pos_of_not_begins (hd : d ≠ []) (hbegins : occursAt true (exactly d) cs 0 = false) :
    ∀ h ∈ lineHits (.delimiter d) (tagTexts tags) cs, 0 < h.start := by
  intro h hmem
  have hnone : lineHit? (.delimiter d) (tagTexts tags) cs 0 = none := by
    simp only [lineHit?, LineHead.end?, hbegins, Bool.false_eq_true, if_false, Option.map_none]
  rw [lineHits, hitsFrom_of_none hnone] at hmem
  have hstart := start_of_mem_hitsFrom hd hmem
  omega

theorem filterMap_found?_of_pos {hits : List LineHit} (h : ∀ hit ∈ hits, 0 < hit.start) (skipsFirstLine : Bool) :
    hits.filterMap (LineHit.found? skipsFirstLine cs) = hits.filterMap (LineHit.comment? cs) := by
  apply List.filterMap_congr
  intro hit hmem
  have hne : (hit.start == 0) = false := beq_false_of_ne (Nat.ne_of_gt (h hit hmem))
  rw [LineHit.found?, hne, Bool.and_false, if_neg Bool.false_ne_true]

theorem lineComments_of_begins (hd : d ≠ []) (tags : List String) (hbegins : occursAt true (exactly d) cs 0 = true) :
    let e := (LineHead.delimiter d).expression tags
    ∃ m later body, e.matchesIn cs = m :: later ∧ m.span.start = 0 ∧ m.group? 4 = some ⟨body, m.span.stop⟩ ∧
      (∀ m' ∈ later, 0 < m'.span.start) ∧
      lineComments false e cs = (ofRange? .line cs 0 body m.span.stop).toList ++ lineComments true e cs := by
  intro e
  have hproper : (LineHead.delimiter d).Proper := hd
  obtain ⟨hit, rest, hhits, hstart, hrest⟩ := lineHits_of_begins hd tags hbegins
  have hmatches := matchesIn_line hproper tags cs
  rw [hhits, List.map_cons] at hmatches
  obtain ⟨m, later, hm, hspans, hlater⟩ := List.map_eq_cons_iff.mp hmatches
  have hspan : m.span = ⟨hit.start, hit.stop⟩ := (Prod.mk.inj hspans).1
  have hgroup : m.group? 4 = some ⟨hit.body, hit.stop⟩ := (Prod.mk.inj hspans).2
  refine ⟨m, later, hit.body, hm, ?_, ?_, ?_, ?_⟩
  · rw [hspan, hstart]
  · rw [hgroup, hspan]
  · intro m' hmem
    have hmap : (m'.span, m'.group? 4) ∈ rest.map LineHit.spans := hlater ▸ List.mem_map_of_mem hmem
    obtain ⟨hit', hmem', hspans'⟩ := List.mem_map.mp hmap
    rw [← (Prod.mk.inj hspans').1]
    exact hrest hit' hmem'
  · have hfirst : hit.found? true cs = none := by rw [LineHit.found?, hstart]; rfl
    have hcomment : hit.found? false cs = ofRange? .line cs 0 hit.body hit.stop := by
      rw [LineHit.found?, Bool.false_and, if_neg Bool.false_ne_true, LineHit.comment?, hstart]
      rfl
    simp only [e, lineComments_eq hproper, hhits, List.filterMap_cons, hfirst, hcomment, hspan,
      filterMap_found?_of_pos hrest]
    cases ofRange? .line cs 0 hit.body hit.stop <;> rfl

theorem lineComments_of_not_begins (hd : d ≠ []) (tags : List String)
    (hbegins : occursAt true (exactly d) cs 0 = false) (skipsFirstLine : Bool) :
    lineComments skipsFirstLine ((LineHead.delimiter d).expression tags) cs =
      lineComments false ((LineHead.delimiter d).expression tags) cs := by
  have hproper : (LineHead.delimiter d).Proper := hd
  have hpos : ∀ h ∈ lineHits (.delimiter d) (tagTexts tags) cs, 0 < h.start := start_pos_of_not_begins hd hbegins
  rw [lineComments_eq hproper, lineComments_eq hproper, filterMap_found?_of_pos hpos, filterMap_found?_of_pos hpos]

end Hits

/-- The line delimiter of a profile stands at the start of a text, whatever the case of its letters. -/
def Begins (profile : Profile) (cs : List Char) : Prop :=
  ∃ d, profile.lineDelimiter = some d ∧ d ≠ "" ∧ occursAt true (exactly d.toList) cs 0 = true

section Profiles

variable {profile : Profile} {scope : Scope} {cs : List Char}

/-- What the line comments have in front, the extraction has in front. -/
theorem extract_anywhere_of_lines (hs : profile.supported = true) (hskips : profile.skipsFirstLine = true)
    {front : List Comment} (hlines : runOf (lineComments false · cs) (Patterns.ofProfile profile scope).line =
      front ++ runOf (lineComments true · cs) (Patterns.ofProfile profile scope).line) :
    extract (anywhere profile) (Patterns.ofProfile (anywhere profile) scope) cs =
      front ++ extract profile (Patterns.ofProfile profile scope) cs := by
  have hs' : (anywhere profile).supported = true := hs
  have hpatterns : Patterns.ofProfile (anywhere profile) scope = Patterns.ofProfile profile scope := rfl
  have hnone : (anywhere profile).skipsFirstLine = false := rfl
  simp only [hpatterns, extract_eq_runs hs', extract_eq_runs hs, hskips, hnone, hlines, List.append_assoc]

theorem line_of_delimiter (hs : profile.supported = true) (hplain : (profile.plainText && scope.plainText) = false) :
    (Patterns.ofProfile profile scope).line = (profile.lineDelimiter.filter (· != "")).map fun d =>
      (LineHead.delimiter d.toList).expression scope.tags := by
  rw [LineHead.ofProfile_line hs, LineHead.ofProfile?, hplain, if_neg Bool.false_ne_true, Option.map_map]
  rfl

end Profiles

/-- Outside plain text, a profile that leaves out the start of a text finds what it would find without this, in order,
except for one comment if its delimiter opens the text: that of the match at offset 0, where something is left of it. No
other match begins there. -/
theorem extract_anywhere (profile : Profile) (scope : Scope) (cs : List Char) (hs : profile.supported = true)
    (hskips : profile.skipsFirstLine = true) (hplain : (profile.plainText && scope.plainText) = false) :
    let found := fun p => extract p (Patterns.ofProfile p scope) cs
    (Begins profile cs → ∃ e m later body, (Patterns.ofProfile profile scope).line = some e ∧
      e.matchesIn cs = m :: later ∧ m.span.start = 0 ∧ m.group? 4 = some ⟨body, m.span.stop⟩ ∧
      (∀ m' ∈ later, 0 < m'.span.start) ∧
      found { profile with skipsFirstLine := false } =
        (ofRange? .line cs 0 body m.span.stop).toList ++ found profile) ∧
    (¬ Begins profile cs → found { profile with skipsFirstLine := false } = found profile) := by
  intro found
  have hline : (Patterns.ofProfile profile scope).line = (profile.lineDelimiter.filter (· != "")).map fun d =>
      (LineHead.delimiter d.toList).expression scope.tags := line_of_delimiter hs hplain
  constructor
  · intro hbegins
    obtain ⟨d, hd, hne, hocc⟩ := hbegins
    have hnil : d.toList ≠ [] := by simpa using hne
    have he : (Patterns.ofProfile profile scope).line =
        some ((LineHead.delimiter d.toList).expression scope.tags) := by
      simp [hline, hd, Option.filter, hne]
    obtain ⟨m, later, body, hmatches, hstart, hgroup, hlater, hcomments⟩ :=
      lineComments_of_begins hnil scope.tags hocc
    refine ⟨_, m, later, body, he, hmatches, hstart, hgroup, hlater, ?_⟩
    apply extract_anywhere_of_lines hs hskips
    simpa only [he, runOf, Option.map_some, Option.getD_some] using hcomments
  · intro hbegins
    change extract (anywhere profile) (Patterns.ofProfile (anywhere profile) scope) cs = [] ++ found profile
    apply extract_anywhere_of_lines hs hskips
    cases hd : profile.lineDelimiter.filter (· != "") with
    | none => simp only [hline, hd, runOf, Option.map_none, Option.getD_none, List.append_nil]
    | some d =>
      obtain ⟨hsome, hkept⟩ := Option.filter_eq_some_iff.mp hd
      have hne : d ≠ "" := by simpa using hkept
      have hnil : d.toList ≠ [] := by simpa using hne
      have hocc : occursAt true (exactly d.toList) cs 0 = false := by
        rw [← Bool.not_eq_true]
        exact fun hocc => hbegins ⟨d, hsome, hne, hocc⟩
      simp only [hline, hd, runOf, Option.map_some, Option.getD_some, List.nil_append,
        lineComments_of_not_begins hnil scope.tags hocc true]

/-- A carriage return ends the comment that opens the text. The one behind it on the same line counts, as does the block
there. -/
theorem extract_anywhere_upperCase :
    let profile : Profile := { Profile.blocks "rem" "/*" "*/" with skipsFirstLine := true }
    let cs := "REM a\rrem b /* c */".toList
    let found := fun p => extract p (Patterns.ofProfile p {}) cs
    profile.supported = true ∧ profile.skipsFirstLine = true ∧ (profile.plainText && false) = false ∧
      Begins profile cs ∧ found profile = [⟨.line, 10, 19, 0, "b /* c */"⟩, ⟨.block, 15, 17, 0, "c "⟩] ∧
      (∃ body stop, found { profile with skipsFirstLine := false } =
        (ofRange? .line cs 0 body stop).toList ++ found profile) ∧
      ¬ Begins profile (' ' :: cs) := by
  intro profile cs found
  have hbegins : Begins profile cs := ⟨"rem", rfl, by decide, by decide +kernel⟩
  have hbehind : ¬ Begins profile (' ' :: cs) := by
    intro h
    obtain ⟨d, hd, -, hocc⟩ := h
    obtain rfl : "rem" = d := Option.some.inj hd
    exact absurd hocc (by decide +kernel)
  obtain ⟨-, m, -, body, -, -, -, -, -, hfound⟩ := (extract_anywhere profile {} cs rfl rfl rfl).1 hbegins
  exact ⟨rfl, rfl, rfl, hbegins, by decide +kernel, ⟨body, m.span.stop, hfound⟩, hbehind⟩

end CommentGrade.Comment
