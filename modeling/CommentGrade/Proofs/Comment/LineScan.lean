import CommentGrade.Proofs.Comment.Kinds
import CommentGrade.Proofs.Pattern.Repetition
import CommentGrade.Proofs.Pattern.Search
import CommentGrade.Proofs.Text.Caseless

/-!
# Line comments by a scan

The expression of line comments never goes back: behind its head every part can also be empty, so each part takes all
it can, and the first of the tags that occurs is taken for good. `lineHits` is that reading, a scan without choices,
and the matches of the expression are its hits. In plain text the head is the start of a line and a match may be
empty; then there is nothing else to match at its place.
-/
namespace CommentGrade.Comment

open Text Pattern

/-- What a line comment begins with. -/
inductive LineHead where
  | delimiter (d : List Char)
  /-- In plain text, nothing but the start of a line. -/
  | lineStart
  deriving DecidableEq, Repr

/-- A line comment in a text: where its head begins, where its own text begins, and where it ends. -/
structure LineHit where
  start : Nat
  body : Nat
  stop : Nat
  deriving DecidableEq, Repr

/-- The spans of a hit: of the whole, and of the comment in it. -/
def LineHit.spans (h : LineHit) : Span × Option Span := (⟨h.start, h.stop⟩, some ⟨h.body, h.stop⟩)

/-- The tags that count, in order. -/
def tagTexts (tags : List String) : List (List Char) := (distinctTags tags).map String.toList

/-- The end of the first tag that occurs at an offset. -/
def firstTag? (tags : List (List Char)) (cs : List Char) (i : Nat) : Option Nat :=
  tags.findSome? fun t => stepOver true (exactly t) cs i

/-- The end of a head at an offset: behind all copies of the delimiter and all blanks. -/
def LineHead.end? (cs : List Char) : LineHead → Nat → Option Nat
  | .delimiter d, i =>
    if occursAt true (exactly d) cs i then
      some (skip isGap cs (farthest cs.length (stepOver true (exactly d) cs) i))
    else none
  | .lineStart, i => if isLineStart cs i then some (skip isGap cs i) else none

/-- The line comment whose head is at an offset: behind the head all tags, then the rest of the line. -/
def lineHit? (head : LineHead) (tags : List (List Char)) (cs : List Char) (i : Nat) :
    Option LineHit :=
  (head.end? cs i).map fun j =>
    let body := farthest cs.length (firstTag? tags cs) j
    ⟨i, body, skip isInLine cs body⟩

/-- The line comments of a text: each is at the first head behind its predecessor. -/
def lineHits (head : LineHead) (tags : List (List Char)) (cs : List Char) : List LineHit :=
  hitsFrom (lineHit? head tags cs) LineHit.stop cs.length 0

/-- What is found at a hit, unless it is empty. -/
def LineHit.comment? (cs : List Char) (h : LineHit) : Option Comment :=
  ofRange? .line cs (lineAt cs h.start) h.body h.stop

namespace LineHead

/-- The head of the line comments of a profile. -/
def ofProfile? (profile : Profile) (plainText : Bool) : Option LineHead :=
  if profile.plainText && plainText then some .lineStart
  else (profile.lineDelimiter.filter (· != "")).map fun d => .delimiter d.toList

/-- The patterns of a head. -/
def patterns : LineHead → List Pattern
  | .delimiter d => delimiterHead (String.ofList d)
  | .lineStart => plainHead

/-- The expression that finds the line comments with a head. -/
def expression (head : LineHead) (tags : List String) : Expression :=
  ⟨inOrder (head.patterns ++ [tagClause tags, lineRest]), true, head == .lineStart⟩

/-- A delimiter must not be empty. -/
def Proper : LineHead → Prop
  | .delimiter d => d ≠ []
  | .lineStart => True

theorem proper_of_ofProfile? {profile : Profile} {plainText : Bool} {head : LineHead}
    (h : ofProfile? profile plainText = some head) : head.Proper := by
  unfold ofProfile? at h
  split_ifs at h with hplain
  · cases h
    trivial
  · obtain ⟨d, hd, rfl⟩ := Option.map_eq_some_iff.mp h
    have hne : d ≠ "" := by simpa using (Option.filter_eq_some_iff.mp hd).2
    simpa [Proper] using hne

theorem linePattern?_eq (profile : Profile) (tags : List String) (plainText : Bool) :
    linePattern? profile tags plainText = (ofProfile? profile plainText).map fun head =>
      inOrder (head.patterns ++ [tagClause tags, lineRest]) := by
  unfold linePattern? ofProfile?
  split_ifs with hplain
  · rfl
  · cases profile.lineDelimiter with
    | none => rfl
    | some d =>
      by_cases hd : d = ""
      · simp [hd, Option.filter]
      · simp [hd, Option.filter, patterns]

theorem ofProfile_line {profile : Profile} (hs : profile.supported = true) (scope : Scope) :
    (Patterns.ofProfile profile scope).line =
      (ofProfile? profile scope.plainText).map (expression · scope.tags) := by
  simp only [Patterns.ofProfile, hs, if_true, linePattern?_eq, Option.map_map]
  unfold ofProfile? expression
  split_ifs with hplain
  · simp [hplain]
  · cases profile.lineDelimiter.filter (· != "") <;> simp [hplain]

end LineHead

section Parts

variable {everyLine : Bool} {cs : List Char}

theorem caselessEq_space (c : Char) : caselessEq ' ' c = (c == ' ') := by
  rw [Bool.eq_iff_iff, caselessEq_iff_of_lt (by decide), beq_iff_eq]

theorem leads_gap : Leads true everyLine cs gap fun i => some (skip isGap cs i) := by
  have hblank : Leads true everyLine cs (.group 2 (.alt (.set (.char ' ')) (.set .tab)))
      (stepOver true [.blankOrTab] cs) := by
    have hstep : stepOver true [.blankOrTab] cs =
        fun i => (stepOver true [.char ' '] cs i).or (stepOver true [.tab] cs i) := by
      funext i
      cases hc : cs[i]? with
      | none => simp [stepOver, hc]
      | some c =>
        simp only [stepOver, occursAt_cons, hc, Option.any_some, CharSet.contains, if_true,
          caselessEq_space, occursAt_nil, Bool.and_true, List.length_singleton]
        cases c == ' ' <;> cases c == '\t' <;> rfl
    rw [hstep]
    exact ((reads_set _).leads.alt (reads_set _).leads).group 2
  have h := hblank.star (advancing_stepOver true (List.cons_ne_nil _ _) cs)
  simp only [farthest_stepOver_set] at h
  exact h

theorem tagTexts_ne_nil {tags : List String} {t : List Char} (ht : t ∈ tagTexts tags) : t ≠ [] := by
  obtain ⟨s, hs, rfl⟩ := List.mem_map.mp ht
  rw [distinctTags, List.mem_eraseDups, List.mem_filter] at hs
  have hne : s ≠ "" := by simpa using hs.2
  simpa using hne

theorem advancing_firstTag? (tags : List String) (cs : List Char) :
    Advancing cs.length (firstTag? (tagTexts tags) cs) := by
  intro i j hj
  obtain ⟨t, ht, hstep⟩ := List.exists_of_findSome?_eq_some hj
  exact advancing_stepOver true (exactly_ne_nil (tagTexts_ne_nil ht)) cs i j hstep

theorem leads_oneOf {caseless : Bool} {ts : List (List Char)} (hne : ts ≠ []) :
    Leads caseless everyLine cs (oneOf ts) fun i =>
      ts.findSome? fun t => stepOver caseless (exactly t) cs i := by
  induction ts with
  | nil => exact absurd rfl hne
  | cons t ts ih =>
    cases ts with
    | nil =>
      have hstep : (fun i => [t].findSome? fun t => stepOver caseless (exactly t) cs i) =
          stepOver caseless (exactly t) cs := by
        funext i
        simp
      rw [hstep, oneOf]
      exact (reads_literal t).leads
    | cons u us =>
      have hstep : (fun i => (t :: u :: us).findSome? fun t => stepOver caseless (exactly t) cs i) =
          fun i => (stepOver caseless (exactly t) cs i).or
            ((u :: us).findSome? fun t => stepOver caseless (exactly t) cs i) := by
        funext i
        rw [List.findSome?_cons]
        cases stepOver caseless (exactly t) cs i <;> rfl
      rw [hstep, oneOf.eq_3 t (u :: us) (by simp)]
      exact (reads_literal t).leads.alt (ih (by simp))

theorem tagClause_eq (tags : List String) : tagClause tags =
    if tagTexts tags = [] then .group 3 .empty
    else .star (.group 3 (oneOf (tagTexts tags))) false := by
  unfold tagClause tagTexts
  cases distinctTags tags <;> simp

/-- Tags are taken as long as there is one, the first one that occurs each time. -/
theorem leads_tagClause (tags : List String) : Leads true everyLine cs (tagClause tags)
    fun i => some (farthest cs.length (firstTag? (tagTexts tags) cs) i) := by
  rw [tagClause_eq]
  split_ifs with hnil
  · rw [hnil]
    have hstep : (fun i => some (farthest cs.length (firstTag? [] cs) i)) = stepOver true [] cs := by
      funext i
      rw [farthest_of_none rfl]
      rfl
    rw [hstep]
    exact reads_empty.leads.group 3
  · exact ((leads_oneOf hnil).group 3).star (advancing_firstTag? tags cs)

theorem leads_inLine : Leads true everyLine cs (.star (.set .inLine) false)
    fun i => some (skip isInLine cs i) := by
  have h := (reads_set .inLine : Reads true everyLine _ _).leads.star
    (advancing_stepOver true (List.cons_ne_nil _ _) cs)
  simp only [farthest_stepOver_set] at h
  exact h

end Parts

section Match

variable {head : LineHead} {tags : List String} {cs : List Char} {i : Nat}

/-- The head of an expression and the tags behind it. -/
def LineHead.opening (head : LineHead) (tags : List String) : Pattern :=
  match head with
  | .delimiter d =>
    .seq (.seq (.plus (.group 1 (literal (String.ofList d).toList))) gap) (tagClause tags)
  | .lineStart =>
    .seq (.seq (.group 1 .lineStart) (.group 2 (.star (.set .blankOrTab) false))) (tagClause tags)

/-- The text of a line comment comes behind the opening, in a group of its own. -/
theorem LineHead.run_expression {α : Type} (cur : Cursor) (caps : Captures) (next : Next α) :
    (head.expression tags).pattern.run true (head == .lineStart) cur caps next =
      (head.opening tags).run true (head == .lineStart) cur caps fun cur' caps' =>
        (Pattern.star (.set .inLine) false).run true (head == .lineStart) cur' caps'
          fun cur'' caps'' => next cur'' ((4, ⟨cur'.offset, cur''.offset⟩) :: caps'') := by
  cases head <;> rfl

theorem leads_plainIndent : Leads true true cs
    (.seq (.group 1 .lineStart) (.group 2 (.star (.set .blankOrTab) false))) (LineHead.lineStart.end? cs) := by
  have hstart : Leads true true cs .lineStart fun i => if isLineStart cs i then some i else none := by
    refine ⟨?_⟩
    intro α i caps next _
    refine ⟨caps, ?_⟩
    rw [run_lineStart]
    cases isLineStart cs i <;> rfl
  have hblank := (reads_set .blankOrTab : Reads true true _ _).leads.star
    (advancing_stepOver true (List.cons_ne_nil _ _) cs)
  simp only [farthest_stepOver_set] at hblank
  have h := (hstart.group 1).seq (hblank.group 2)
  have hstep : LineHead.lineStart.end? cs = fun i =>
      (if isLineStart cs i then some i else none).map (skip isGap cs) := by
    funext i
    simp only [LineHead.end?]
    cases isLineStart cs i <;> rfl
  rw [hstep]
  exact h

theorem leads_delimiters {everyLine : Bool} {d : List Char} (hd : d ≠ []) : Leads true everyLine cs
    (.seq (.plus (.group 1 (literal d))) gap) ((LineHead.delimiter d).end? cs) := by
  have hstep := advancing_stepOver true (exactly_ne_nil hd) cs
  have h := (((reads_literal d : Reads true everyLine _ _).leads.group 1).plus
    hstep).seq leads_gap
  have hend : (LineHead.delimiter d).end? cs = fun i =>
      ((stepOver true (exactly d) cs i).map
        (farthest cs.length (stepOver true (exactly d) cs))).map (skip isGap cs) := by
    funext i
    cases hj : stepOver true (exactly d) cs i with
    | none =>
      have hocc : occursAt true (exactly d) cs i = false := by simpa [stepOver] using hj
      simp [LineHead.end?, hocc]
    | some j =>
      have hocc : occursAt true (exactly d) cs i = true := by
        simp only [stepOver, Option.ite_none_right_eq_some] at hj
        exact hj.1
      simp [LineHead.end?, hocc, farthest_of_some hstep hj]
  rw [hend]
  exact h

theorem leads_opening (hhead : head.Proper) (tags : List String) :
    Leads true (head == .lineStart) cs (head.opening tags) fun i =>
      (head.end? cs i).map (farthest cs.length (firstTag? (tagTexts tags) cs)) := by
  cases head with
  | delimiter d =>
    rw [LineHead.opening, String.toList_ofList]
    exact (leads_delimiters hhead).seq (leads_tagClause tags)
  | lineStart => exact leads_plainIndent.seq (leads_tagClause tags)

/-- The match of the expression at an offset is the hit there: its span and that of the comment in it. -/
theorem matchAt?_line (hhead : head.Proper) (tags : List String) (cs : List Char) (i : Nat) :
    ((head.expression tags).matchAt? false (.inText cs i)).map (fun m => (m.span, m.group? 4)) =
      (lineHit? head (tagTexts tags) cs i).map LineHit.spans := by
  let whole : Next Match := fun cur' caps' => some ⟨⟨i, cur'.offset⟩, caps'⟩
  let rest : Next Match := fun cur' caps' =>
    (Pattern.star (.set .inLine) false).run true (head == .lineStart) cur' caps'
      fun cur'' caps'' => whole cur'' ((4, ⟨cur'.offset, cur''.offset⟩) :: caps'')
  have hmatch : (head.expression tags).matchAt? false (.inText cs i) =
      (head.opening tags).run true (head == .lineStart) (.inText cs i) [] rest :=
    LineHead.run_expression (.inText cs i) [] whole
  have hrest : ∀ j caps', ∃ caps'', rest (.inText cs j) caps' =
      some ⟨⟨i, skip isInLine cs j⟩, (4, ⟨j, skip isInLine cs j⟩) :: caps''⟩ := by
    intro j caps'
    exact leads_inLine.run_eq_some rfl caps'
      (fun cur'' caps'' => whole cur'' ((4, ⟨j, cur''.offset⟩) :: caps'')) fun _ => rfl
  have hopening : Leads true (head == .lineStart) cs (head.opening tags) fun i =>
      (head.end? cs i).map (farthest cs.length (firstTag? (tagTexts tags) cs)) := leads_opening hhead tags
  rw [hmatch, lineHit?]
  cases hj : head.end? cs i with
  | none => rw [hopening.run_eq_none (by rw [hj, Option.map_none]), Option.map_none, Option.map_none, Option.map_none]
  | some j =>
    have htotal : ∀ k caps', (rest (.inText cs k) caps').isSome := by
      intro k caps'
      obtain ⟨caps'', hc⟩ := hrest k caps'
      rw [hc, Option.isSome_some]
    obtain ⟨caps', h⟩ := hopening.run_eq_some (by rw [hj, Option.map_some]) [] rest (htotal _)
    obtain ⟨caps'', hc⟩ := hrest (farthest cs.length (firstTag? (tagTexts tags) cs) j) caps'
    rw [h, hc]
    rfl

theorem LineHead.le_of_end? (hhead : head.Proper) {j : Nat} (h : head.end? cs i = some j) : i ≤ j := by
  cases head with
  | delimiter d =>
    simp only [LineHead.end?, Option.ite_none_right_eq_some, Option.some.injEq] at h
    obtain ⟨-, rfl⟩ := h
    have hle := le_farthest (advancing_stepOver true (exactly_ne_nil hhead) cs) (i := i)
    exact Nat.le_trans hle (le_skip _ _ _)
  | lineStart =>
    simp only [LineHead.end?, Option.ite_none_right_eq_some, Option.some.injEq] at h
    obtain ⟨-, rfl⟩ := h
    exact le_skip _ _ _

theorem LineHead.lt_of_end? {d : List Char} (hd : d ≠ []) {j : Nat}
    (h : (LineHead.delimiter d).end? cs i = some j) : i < j := by
  have hstep := advancing_stepOver true (exactly_ne_nil hd) cs
  simp only [LineHead.end?, Option.ite_none_right_eq_some, Option.some.injEq] at h
  obtain ⟨hocc, rfl⟩ := h
  have hfirst : stepOver true (exactly d) cs i = some (i + (exactly d).length) := if_pos hocc
  calc
    i < i + (exactly d).length := (hstep i _ hfirst).1
    _ ≤ farthest cs.length (stepOver true (exactly d) cs) (i + (exactly d).length) := le_farthest hstep
    _ = farthest cs.length (stepOver true (exactly d) cs) i := (farthest_of_some hstep hfirst).symm
    _ ≤ _ := le_skip _ _ _

theorem stays_tagClause {everyLine : Bool} (h : firstTag? (tagTexts tags) cs i = none) :
    Stays true everyLine cs i (tagClause tags) := by
  rw [tagClause_eq]
  split_ifs with hnil
  · exact stays_empty.group 3
  · exact ((leads_oneOf hnil).group 3).stays_star h

/-- Where an empty match is found, nothing else can be matched. -/
theorem matchAt?_true_eq_none (hhead : head.Proper) {m : Match}
    (h : (head.expression tags).matchAt? false (.inText cs i) = some m) (hstop : m.span.stop = i) :
    (head.expression tags).matchAt? true (.inText cs i) = none := by
  have hhit := matchAt?_line hhead tags cs i
  rw [h, Option.map_some, eq_comm, lineHit?, Option.map_map, Option.map_eq_some_iff] at hhit
  obtain ⟨j, hj, hm⟩ := hhit
  have hend : skip isInLine cs (farthest cs.length (firstTag? (tagTexts tags) cs) j) = i := by
    rw [← hstop, ← (Prod.mk.inj hm).1]
  have htag := le_farthest (advancing_firstTag? tags cs) (i := j)
  have hline := le_skip isInLine cs (farthest cs.length (firstTag? (tagTexts tags) cs) j)
  cases head with
  | delimiter d =>
    have := LineHead.lt_of_end? hhead hj
    omega
  | lineStart =>
    have hle := LineHead.le_of_end? hhead hj
    simp only [LineHead.end?, Option.ite_none_right_eq_some, Option.some.injEq] at hj
    obtain ⟨hstart, hgap⟩ := hj
    have hji : j = i := by omega
    subst hji
    have htagEnd : farthest cs.length (firstTag? (tagTexts tags) cs) j = j := by omega
    have hnoTag : firstTag? (tagTexts tags) cs j = none := by
      have hnone := step_farthest (advancing_firstTag? tags cs) (i := j)
      rwa [htagEnd] at hnone
    rw [htagEnd] at hend
    have hstays : Stays true true cs j (LineHead.lineStart.expression tags).pattern := by
      have hone : Stays true true cs j .lineStart := by
        refine ⟨?_⟩
        intro α caps next
        exact ⟨caps, by rw [run_lineStart, hstart, if_pos rfl]⟩
      exact (hone.group 1).seq <|
        (((reads_set .blankOrTab).leads.stays_star (stepOver_set_eq_none hgap)).group 2).seq <|
          (stays_tagClause hnoTag).seq <|
            ((reads_set .inLine).leads.stays_star (stepOver_set_eq_none hend)).group 4
    obtain ⟨caps', hrun⟩ := hstays.run_eq [] fun cur' caps' =>
      if true && cur'.offset == j then none else some (⟨⟨j, cur'.offset⟩, caps'⟩ : Match)
    rw [Expression.matchAt?]
    refine hrun.trans ?_
    simp

end Match

section Hits

variable {head : LineHead} {tags : List String} {cs : List Char} {i : Nat} {hit : LineHit}

theorem LineHead.end?_le (hhead : head.Proper) (hi : i ≤ cs.length) {j : Nat}
    (h : head.end? cs i = some j) : j ≤ cs.length := by
  cases head with
  | delimiter d =>
    simp only [LineHead.end?, Option.ite_none_right_eq_some, Option.some.injEq] at h
    obtain ⟨-, rfl⟩ := h
    exact skip_le _ (farthest_le (advancing_stepOver true (exactly_ne_nil hhead) cs) hi)
  | lineStart =>
    simp only [LineHead.end?, Option.ite_none_right_eq_some, Option.some.injEq] at h
    obtain ⟨-, rfl⟩ := h
    exact skip_le _ hi

theorem lineHit?_bounds (hhead : head.Proper) (hi : i ≤ cs.length)
    (h : lineHit? head (tagTexts tags) cs i = some hit) :
    hit.start = i ∧ i ≤ hit.body ∧ hit.body ≤ hit.stop ∧ hit.stop ≤ cs.length := by
  obtain ⟨j, hj, rfl⟩ := Option.map_eq_some_iff.mp h
  have hstep := advancing_firstTag? tags cs
  have hhead_le := LineHead.le_of_end? hhead hj
  have htag_le := le_farthest hstep (i := j)
  have hbody := farthest_le hstep (LineHead.end?_le hhead hi hj)
  exact ⟨rfl, Nat.le_trans hhead_le htag_le, le_skip _ _ _, skip_le _ hbody⟩

/-- The matches in a text are the hits of the scan. -/
theorem matchesIn_line (hhead : head.Proper) (tags : List String) (cs : List Char) :
    ((head.expression tags).matchesIn cs).map (fun m => (m.span, m.group? 4)) =
      (lineHits head (tagTexts tags) cs).map LineHit.spans := by
  have hempty : ∀ i ≤ cs.length, ∀ m, (head.expression tags).matchAt? false (.inText cs i) = some m →
      m.span.stop = i → (head.expression tags).matchAt? true (.inText cs i) = none :=
    fun _ _ _ h hstop => matchAt?_true_eq_none hhead h hstop
  rw [Expression.matchesIn_eq_hitsFrom hempty, lineHits,
    hitsFrom_map (fun m : Match => (m.span, m.group? 4)) (·.span.stop) (·.1.stop)
      (fun _ => rfl),
    hitsFrom_map LineHit.spans LineHit.stop (·.1.stop) (fun _ => rfl)]
  simp only [matchAt?_line hhead]

/-- What is found at a hit where the start of a text may be no comment. -/
def LineHit.found? (skipsFirstLine : Bool) (cs : List Char) (h : LineHit) : Option Comment :=
  if skipsFirstLine && h.start == 0 then none else h.comment? cs

/-- The line comments of a text are what is found at the hits of the scan. -/
theorem lineComments_eq (hhead : head.Proper) (tags : List String) (skipsFirstLine : Bool)
    (cs : List Char) : lineComments skipsFirstLine (head.expression tags) cs =
      (lineHits head (tagTexts tags) cs).filterMap (LineHit.found? skipsFirstLine cs) := by
  refine filterMap_eq_of_map_eq (matchesIn_line hhead tags cs) ?_
  intro m hit hmem hspans
  have hspan : m.span = ⟨hit.start, hit.stop⟩ := (Prod.mk.inj hspans).1
  have hgroup : m.group? 4 = some ⟨hit.body, hit.stop⟩ := (Prod.mk.inj hspans).2
  obtain ⟨i, -, hi, hhit⟩ := exists_of_mem_hitsFrom hmem
  obtain ⟨hstart, hbody, hstop, hlen⟩ := lineHit?_bounds hhead hi hhit
  have hle : hit.start ≤ cs.length := hstart ▸ hi
  have hlength : hit.stop - (hit.stop - hit.body) = hit.body := by omega
  simp only [ofLineMatch?, hspan, hgroup, positionAt_eq_origin_iff hle, positionAt_line hle, Option.map_some,
    Option.getD_some, hlength, LineHit.found?, LineHit.comment?]
  cases skipsFirstLine <;> by_cases hzero : hit.start = 0 <;> simp [hzero]

theorem start_lt_stop_of_mem {d : List Char} (hd : d ≠ [])
    (h : hit ∈ lineHits (.delimiter d) (tagTexts tags) cs) : hit.start < hit.stop := by
  obtain ⟨i, -, hi, hhit⟩ := exists_of_mem_hitsFrom h
  have hproper : (LineHead.delimiter d).Proper := hd
  obtain ⟨hstart, -, hstop, -⟩ := lineHit?_bounds hproper hi hhit
  obtain ⟨j, hj, rfl⟩ := Option.map_eq_some_iff.mp hhit
  have hlt := LineHead.lt_of_end? hd hj
  have htag := le_farthest (advancing_firstTag? tags cs) (i := j)
  exact Nat.lt_of_lt_of_le (Nat.lt_of_lt_of_le hlt htag) hstop

end Hits

/-- With a line delimiter, outside plain text, the matches in a text are the hits of the scan for that delimiter. Its
line comments are what is found there, unless the profile leaves out the start of a text. -/
theorem extract_line_eq_scan (profile : Profile) (scope : Scope) (d : String) (cs : List Char)
    (hs : profile.supported = true) (hplain : (profile.plainText && scope.plainText) = false)
    (hd : profile.lineDelimiter = some d) (hne : d ≠ "") :
    let hits := lineHits (.delimiter d.toList) (tagTexts scope.tags) cs
    (∀ h ∈ hits, h.start < h.stop) ∧
    (∃ e, (Patterns.ofProfile profile scope).line = some e ∧
      (e.matchesIn cs).map (fun m => (m.span, m.group? 4)) = hits.map LineHit.spans) ∧
    (profile.skipsFirstLine = false →
      (extract profile (Patterns.ofProfile profile scope) cs).filter (·.kind == .line) =
        hits.filterMap (LineHit.comment? cs)) := by
  have hhead : LineHead.ofProfile? profile scope.plainText = some (.delimiter d.toList) := by
    simp [LineHead.ofProfile?, hplain, hd, Option.filter, hne]
  have hproper := LineHead.proper_of_ofProfile? hhead
  have hline : (Patterns.ofProfile profile scope).line =
      some ((LineHead.delimiter d.toList).expression scope.tags) := by
    rw [LineHead.ofProfile_line hs, hhead, Option.map_some]
  refine ⟨fun h hmem => start_lt_stop_of_mem hproper hmem, ⟨_, hline, matchesIn_line hproper _ _⟩, ?_⟩
  intro hskip
  rw [extract_filter_kind hs]
  simp only [runOf, hline, Option.map_some, Option.getD_some, lineComments_eq hproper, hskip]
  rfl

/-- Two copies of a delimiter, a blank and two tags belong to no comment. -/
theorem extract_line_eq_scan_tagged :
    let profile := Profile.line "//"
    let scope : Scope := { tags := ["TODO", "TO"] }
    profile.supported = true ∧ (profile.plainText && scope.plainText) = false ∧
      profile.lineDelimiter = some "//" ∧ "//" ≠ "" ∧ profile.skipsFirstLine = false ∧
      (extract profile (Patterns.ofProfile profile scope) "a//// todoTO: x\n//\nb".toList).filter
        (·.kind == .line) = [⟨.line, 12, 15, 0, ": x"⟩] := by
  refine ⟨rfl, rfl, rfl, by decide, rfl, ?_⟩
  have h := (extract_line_eq_scan (Profile.line "//") { tags := ["TODO", "TO"] } "//"
    "a//// todoTO: x\n//\nb".toList rfl rfl rfl (by decide)).2.2 rfl
  rw [h]
  decide +kernel

end CommentGrade.Comment
