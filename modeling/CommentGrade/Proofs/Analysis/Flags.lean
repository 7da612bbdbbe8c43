import CommentGrade.Analysis.Text
import CommentGrade.Proofs.Comment.Kinds
import CommentGrade.Proofs.Summary.Medians

/-!
# Flags of an analysis

A flag that turns off blocks or doc blocks leaves these out of an analysis and changes nothing else: the other comments
are found in the same places, and what is said about each of them does not depend on the rest. The flag of plain text
matters for plain text alone, and the flags about notes and reading time for no analysis.
-/
namespace CommentGrade

open Comment Readability

namespace Language

theorem plainText_profileFor {id : String} (hid : id ≠ plainTextId) (wanted : Bool) :
    (profileFor id wanted).plainText = false := by
  have hgroups : ∀ g ∈ groups, g.2.plainText = false := by decide
  rw [profileFor, if_neg hid, registryProfile?]
  cases hg : groups.find? fun g => g.1.contains id with
  | none => rfl
  | some g => exact hgroups g (List.mem_of_find?_eq_some hg)

theorem profileFor_congr {id : String} (hid : id ≠ plainTextId) (wanted wanted' : Bool) :
    profileFor id wanted = profileFor id wanted' := by
  rw [profileFor, profileFor, if_neg hid, if_neg hid]

end Language

namespace Analysis

section Found

theorem ofProfile_blocks (profile : Profile) (scope : Scope) :
    Patterns.ofProfile profile { scope with blocks := false } =
      (Patterns.ofProfile profile { scope with blocks := true }).without .block := by
  unfold Patterns.ofProfile
  cases profile.supported <;> rfl

theorem ofProfile_docBlocks (profile : Profile) (scope : Scope) :
    Patterns.ofProfile profile { scope with docBlocks := false } =
      (Patterns.ofProfile profile { scope with docBlocks := true }).without .doc := by
  unfold Patterns.ofProfile
  cases profile.supported <;> simp [Patterns.without]

theorem ofProfile_plainText {profile : Profile} (h : profile.plainText = false) (scope : Scope) (wanted : Bool) :
    Patterns.ofProfile profile { scope with plainText := wanted } = Patterns.ofProfile profile scope := by
  simp only [Patterns.ofProfile, linePattern?, h, Bool.false_and]

variable (s : Settings Bool) (id : String) (cs : List Char)

theorem commentsOf_without {on off : Settings Bool} {id : String} {kind : CommentKind}
    (hprofile : profileOf off id = profileOf on id)
    (hpatterns : Patterns.ofProfile (profileOf on id) (scopeOf off) =
      (Patterns.ofProfile (profileOf on id) (scopeOf on)).without kind) (cs : List Char) :
    commentsOf off id cs = (commentsOf on id cs).filter (·.kind != kind) := by
  rw [commentsOf, hprofile, hpatterns]
  exact extract_without _ _ cs kind

theorem commentsOf_multilineComments : commentsOf { s with multilineComments := false } id cs =
    (commentsOf { s with multilineComments := true } id cs).filter (·.kind != .block) := by
  apply commentsOf_without
  · rfl
  · exact ofProfile_blocks (profileOf s id) (scopeOf s)

theorem commentsOf_useDocStyle : commentsOf { s with useDocStyle := false } id cs =
    (commentsOf { s with useDocStyle := true } id cs).filter (·.kind != .doc) := by
  apply commentsOf_without
  · rfl
  · exact ofProfile_docBlocks (profileOf s id) (scopeOf s)

variable {id} in
theorem commentsOf_highlightPlainText (hid : id ≠ Language.plainTextId) (wanted : Bool) :
    commentsOf { s with highlightPlainText := wanted } id cs = commentsOf s id cs := by
  have hprofile : profileOf { s with highlightPlainText := wanted } id = profileOf s id :=
    Language.profileFor_congr hid _ _
  have hplain : (profileOf s id).plainText = false := Language.plainText_profileFor hid _
  have hpatterns : Patterns.ofProfile (profileOf s id) (scopeOf { s with highlightPlainText := wanted }) =
      Patterns.ofProfile (profileOf s id) (scopeOf s) := ofProfile_plainText hplain (scopeOf s) wanted
  rw [commentsOf, hprofile, hpatterns]
  rfl

end Found

section Graded

variable {α : Type} [Add α] [Div α] [OfScientific α] [LE α] [DecidableLE α] [LT α] [DecidableLT α] [BEq α]
  [Number.Measure α] {f : Formulas α}

theorem grade_cons_eq_ok_iff {c : Comment} {cs : List Comment} {gs : List (Graded α)} :
    grade f (c :: cs) = .ok gs ↔
      ∃ stats rest, evaluateWith f c.text.toList = .ok stats ∧ grade f cs = .ok rest ∧ gs = ⟨c, stats⟩ :: rest := by
  rw [grade]
  cases evaluateWith f c.text.toList with
  | error e => simp [bind, Except.bind]
  | ok stats =>
    cases grade f cs with
    | error e => simp [bind, Except.bind]
    | ok rest => simp [bind, Except.bind, pure, Except.pure, eq_comm]

theorem grade_filter (p : Comment → Bool) {cs : List Comment} {gs : List (Graded α)} (h : grade f cs = .ok gs) :
    grade f (cs.filter p) = .ok (gs.filter (p ·.comment)) := by
  induction cs generalizing gs with
  | nil =>
    cases h
    rfl
  | cons c cs ih =>
    obtain ⟨stats, rest, hstats, hrest, rfl⟩ := grade_cons_eq_ok_iff.mp h
    rw [List.filter_cons, List.filter_cons]
    cases hp : p c with
    | true => exact grade_cons_eq_ok_iff.mpr ⟨stats, _, hstats, ih hrest, rfl⟩
    | false => exact ih hrest

theorem exists_grade_iff {cs : List Comment} :
    (∃ gs, grade f cs = .ok gs) ↔ ∀ c ∈ cs, ∃ stats, evaluateWith f c.text.toList = .ok stats := by
  induction cs with
  | nil => simp [grade]
  | cons c cs ih =>
    simp only [grade_cons_eq_ok_iff, List.forall_mem_cons, ← ih]
    constructor
    · rintro ⟨gs, stats, rest, hstats, hrest, -⟩
      exact ⟨⟨stats, hstats⟩, rest, hrest⟩
    · rintro ⟨⟨stats, hstats⟩, rest, hrest⟩
      exact ⟨_, stats, rest, hstats, hrest, rfl⟩

theorem comments_of_grade {cs : List Comment} {gs : List (Graded α)} (h : grade f cs = .ok gs) :
    gs.map (·.comment) = cs := by
  induction cs generalizing gs with
  | nil =>
    cases h
    rfl
  | cons c cs ih =>
    obtain ⟨stats, rest, -, hrest, rfl⟩ := grade_cons_eq_ok_iff.mp h
    rw [List.map_cons, ih hrest]

theorem evaluated_of_grade {cs : List Comment} {gs : List (Graded α)} (h : grade f cs = .ok gs) :
    ∀ g ∈ gs, evaluateWith f g.comment.text.toList = .ok g.stats := by
  induction cs generalizing gs with
  | nil =>
    cases h
    nofun
  | cons c cs ih =>
    obtain ⟨stats, rest, hstats, hrest, rfl⟩ := grade_cons_eq_ok_iff.mp h
    exact List.forall_mem_cons.mpr ⟨hstats, ih hrest⟩

end Graded

section Result

variable {α : Type} [Add α] [Sub α] [Mul α] [Div α] [OfScientific α] [NatCast α] [LE α] [DecidableLE α]

theorem exists_summary (graded : List (Graded α)) :
    ∃ summary, Summary.make (graded.map (·.stats)) (graded.map (·.comment.kind)) = .ok summary :=
  Summary.exists_make (by rw [List.length_map, List.length_map])

variable [LT α] [DecidableLT α] [BEq α] [Number.Measure α] {f : Formulas α} {s : Settings Bool} {id : String}
  {file : Option String} {text : String}

/-- An analysis is its graded comments, all of them, with their summary. -/
theorem ofText_eq_ok_iff (hs : (profileOf s id).supported = true) {a : Analysis α} :
    ofText f s id file text = .ok a ↔ ∃ graded summary, grade f (commentsOf s id text.toList) = .ok graded ∧
      Summary.make (graded.map (·.stats)) (graded.map (·.comment.kind)) = .ok summary ∧
      a = ⟨id, profileOf s id, file, text, graded, summary⟩ := by
  simp only [ofText, hs, if_true]
  cases grade f (commentsOf s id text.toList) with
  | error e => simp [bind, Except.bind, Except.mapError]
  | ok graded =>
    cases hsummary : Summary.make (graded.map (·.stats)) (graded.map (·.comment.kind)) with
    | error e => simp [bind, Except.bind, Except.mapError, hsummary]
    | ok summary => simp [bind, Except.bind, Except.mapError, pure, Except.pure, hsummary, eq_comm]

theorem ofText_of_unsupported (hs : (profileOf s id).supported = false) :
    ofText f s id file text = .ok ⟨id, profileOf s id, file, text, [], .empty⟩ := by
  rw [ofText, hs]
  rfl

theorem commentsOf_of_unsupported (hs : (profileOf s id).supported = false) (cs : List Char) :
    commentsOf s id cs = [] := by
  rw [commentsOf, extract, hs]
  rfl

theorem exists_ofText_iff : (∃ a, ofText f s id file text = .ok a) ↔
    ∀ c ∈ commentsOf s id text.toList, ∃ stats, evaluateWith f c.text.toList = .ok stats := by
  cases hs : (profileOf s id).supported with
  | false =>
    rw [commentsOf_of_unsupported hs]
    exact ⟨fun _ _ hc => absurd hc List.not_mem_nil, fun _ => ⟨_, ofText_of_unsupported hs⟩⟩
  | true =>
    rw [← exists_grade_iff]
    constructor
    · rintro ⟨a, ha⟩
      obtain ⟨graded, -, hgraded, -⟩ := (ofText_eq_ok_iff hs).mp ha
      exact ⟨graded, hgraded⟩
    · rintro ⟨graded, hgraded⟩
      obtain ⟨summary, hsummary⟩ := exists_summary graded
      exact ⟨_, (ofText_eq_ok_iff hs).mpr ⟨graded, summary, hgraded, hsummary, rfl⟩⟩

theorem text_of_ofText {a : Analysis α} (h : ofText f s id file text = .ok a) : a.text = text := by
  cases hs : (profileOf s id).supported with
  | false =>
    obtain rfl := Except.ok.inj ((ofText_of_unsupported hs).symm.trans h)
    rfl
  | true =>
    obtain ⟨_, _, -, -, rfl⟩ := (ofText_eq_ok_iff hs).mp h
    rfl

theorem comments_of_ofText {a : Analysis α} (h : ofText f s id file text = .ok a) :
    a.graded.map (·.comment) = commentsOf s id text.toList := by
  cases hs : (profileOf s id).supported with
  | false =>
    obtain rfl := Except.ok.inj ((ofText_of_unsupported hs).symm.trans h)
    exact (commentsOf_of_unsupported hs _).symm
  | true =>
    obtain ⟨graded, -, hgraded, -, rfl⟩ := (ofText_eq_ok_iff hs).mp h
    exact comments_of_grade hgraded

theorem evaluated_of_ofText {a : Analysis α} (h : ofText f s id file text = .ok a) :
    ∀ g ∈ a.graded, evaluateWith f g.comment.text.toList = .ok g.stats := by
  cases hs : (profileOf s id).supported with
  | false =>
    obtain rfl := Except.ok.inj ((ofText_of_unsupported hs).symm.trans h)
    nofun
  | true =>
    obtain ⟨graded, -, hgraded, -, rfl⟩ := (ofText_eq_ok_iff hs).mp h
    exact evaluated_of_grade hgraded

theorem summary_of_ofText {a : Analysis α} (h : ofText f s id file text = .ok a) :
    Summary.make (a.graded.map (·.stats)) (a.graded.map (·.comment.kind)) = .ok a.summary := by
  cases hs : (profileOf s id).supported with
  | false =>
    obtain rfl := Except.ok.inj ((ofText_of_unsupported hs).symm.trans h)
    rfl
  | true =>
    obtain ⟨graded, summary, -, hsummary, rfl⟩ := (ofText_eq_ok_iff hs).mp h
    exact hsummary

/-- Settings that find fewer comments give an analysis of these, and say the same about each. -/
theorem ofText_filter {on off : Settings Bool} {p : Comment → Bool}
    (hcomments : commentsOf off id text.toList = (commentsOf on id text.toList).filter p)
    (hprofile : profileOf off id = profileOf on id) {a : Analysis α} (h : ofText f on id file text = .ok a) :
    ∃ summary, ofText f off id file text =
      .ok { a with graded := a.graded.filter (p ·.comment), summary := summary } := by
  cases hs : (profileOf on id).supported with
  | false =>
    have hs' : (profileOf off id).supported = false := hprofile ▸ hs
    obtain rfl := Except.ok.inj ((ofText_of_unsupported hs).symm.trans h)
    exact ⟨.empty, by rw [ofText_of_unsupported hs', hprofile]; rfl⟩
  | true =>
    have hs' : (profileOf off id).supported = true := hprofile ▸ hs
    obtain ⟨graded, -, hgraded, -, rfl⟩ := (ofText_eq_ok_iff hs).mp h
    obtain ⟨summary, hsummary⟩ := exists_summary (graded.filter (p ·.comment))
    have hfewer : grade f (commentsOf off id text.toList) = .ok (graded.filter (p ·.comment)) := by
      rw [hcomments]
      exact grade_filter p hgraded
    exact ⟨summary, (ofText_eq_ok_iff hs').mpr ⟨_, summary, hfewer, hsummary, by rw [hprofile]⟩⟩

theorem ofText_congr {s' : Settings Bool} (hprofile : profileOf s' id = profileOf s id)
    (hcomments : commentsOf s' id text.toList = commentsOf s id text.toList) :
    ofText f s' id file text = ofText f s id file text := by
  rw [ofText, ofText, hprofile, hcomments]

/-- Without blocks, or without doc blocks, the comments of a text are the other ones, and their analysis says the same
about each of them. No other flag counts, but for plain text the one about it. A text is analysed whenever its comments
can be evaluated. -/
theorem ofText_flags_filter (f : Formulas α) (s : Settings Bool) (id : String) (file : Option String) (text : String) :
    let found s := commentsOf s id text.toList
    let result s := ofText f s id file text
    (found { s with multilineComments := false } =
        (found { s with multilineComments := true }).filter (·.kind != .block) ∧
      ∀ a, result { s with multilineComments := true } = .ok a → ∃ summary,
        result { s with multilineComments := false } =
          .ok { a with graded := a.graded.filter (·.comment.kind != .block), summary := summary }) ∧
    (found { s with useDocStyle := false } = (found { s with useDocStyle := true }).filter (·.kind != .doc) ∧
      ∀ a, result { s with useDocStyle := true } = .ok a → ∃ summary,
        result { s with useDocStyle := false } =
          .ok { a with graded := a.graded.filter (·.comment.kind != .doc), summary := summary }) ∧
    (id ≠ Language.plainTextId → ∀ wanted,
      found { s with highlightPlainText := wanted } = found s ∧
        result { s with highlightPlainText := wanted } = result s) ∧
    (∀ notes time, found { s with showNotes := notes, estimatedReadingTime := time } = found s ∧
      result { s with showNotes := notes, estimatedReadingTime := time } = result s) ∧
    ((∃ a, result s = .ok a) ↔ ∀ c ∈ found s, ∃ stats, evaluateWith f c.text.toList = .ok stats) := by
  intro found result
  refine ⟨⟨commentsOf_multilineComments s id _, ?_⟩, ⟨commentsOf_useDocStyle s id _, ?_⟩, ?_, ?_, exists_ofText_iff⟩
  · intro a ha
    exact ofText_filter (commentsOf_multilineComments s id _) rfl ha
  · intro a ha
    exact ofText_filter (commentsOf_useDocStyle s id _) rfl ha
  · intro hid wanted
    have hfound := commentsOf_highlightPlainText s text.toList hid wanted
    exact ⟨hfound, ofText_congr (Language.profileFor_congr hid _ _) hfound⟩
  · intro notes time
    exact ⟨rfl, ofText_congr rfl rfl⟩

end Result

/-- Formulas that say the same about every text. -/
def constantFormulas {α : Type} (o : Outcome α) : Formulas α where
  characters _ := o
  letters _ := o
  words _ := o
  syllables _ := o
  sentences _ := o
  fleschReadingEase _ := o
  fleschKincaidGrade _ := o
  polysyllables _ := o
  smogIndex _ := o
  colemanLiauIndex _ := o
  automatedReadabilityIndex _ := o
  linsearWrite _ := o
  daleChall _ := o
  gunningFog _ := o
  lix _ := o
  rix _ := o

/-- A text with a comment of each kind. -/
theorem ofText_flags_filter_kinds :
    let f : Formulas Rat := constantFormulas (.whole 3)
    let s : Settings Bool := Settings.defaults id
    let text := "// a\n /** b */\n /* c */"
    let result s := ofText f s "javascript" none text
    "javascript" ≠ Language.plainTextId ∧ ∃ a b c : Analysis Rat, result s = .ok a ∧
      result { s with highlightPlainText := true } = .ok a ∧
      result { s with multilineComments := false } = .ok b ∧ result { s with useDocStyle := false } = .ok c ∧
      a.graded.map (·.comment.text) = ["a", "c ", " b "] ∧ b.graded.map (·.comment.text) = ["a", " b "] ∧
      c.graded.map (·.comment.text) = ["a", "c "] := by
  intro f s text result
  have hid : "javascript" ≠ Language.plainTextId := by decide
  obtain ⟨⟨-, hblocks⟩, ⟨-, hdocs⟩, hplain, -, hdefined⟩ := ofText_flags_filter f s "javascript" none text
  have hevaluated : (grade f (commentsOf s "javascript" text.toList)).isOk = true := by decide +kernel
  have hgrade : ∃ gs, grade f (commentsOf s "javascript" text.toList) = .ok gs := by
    cases hgs : grade f (commentsOf s "javascript" text.toList) with
    | ok gs => exact ⟨gs, rfl⟩
    | error e =>
      rw [hgs] at hevaluated
      cases hevaluated
  obtain ⟨a, ha⟩ := hdefined.mpr (exists_grade_iff.mp hgrade)
  obtain ⟨_, hb⟩ := hblocks a ha
  obtain ⟨_, hc⟩ := hdocs a ha
  have hcomments : a.graded.map (·.comment) =
      [⟨.line, 3, 4, 0, "a"⟩, ⟨.block, 19, 21, 2, "c "⟩, ⟨.doc, 9, 12, 1, " b "⟩] :=
    (comments_of_ofText ha).trans (by decide +kernel)
  have htexts : ∀ p : Comment → Bool, (a.graded.filter (p ·.comment)).map (·.comment.text) =
      ((a.graded.map (·.comment)).filter p).map (·.text) := by
    intro p
    rw [List.filter_map, List.map_map]
    rfl
  refine ⟨hid, a, _, _, ha, ((hplain hid true).2).trans ha, hb, hc, ?_, ?_, ?_⟩
  · have hall : a.graded.map (·.comment.text) = (a.graded.map (·.comment)).map (·.text) := List.map_map.symm
    rw [hall, hcomments]
    rfl
  · exact (htexts (·.kind != .block)).trans (by rw [hcomments]; rfl)
  · exact (htexts (·.kind != .doc)).trans (by rw [hcomments]; rfl)

end Analysis

end CommentGrade
