import CommentGrade.Proofs.Analysis.Flags
import CommentGrade.Proofs.Report.Entries
import CommentGrade.Proofs.Summary.Contents

/-!
# A report is consistent

The parts of a report are found by different walks over the comments of a text. They agree with each other: the summary
counts the comments that the report lists, its columns look at the metrics that stand there, and there is a note for
each comment with a grade. The laws hold in exact arithmetic, for any formulas whose outcomes are foreseen.
-/
namespace CommentGrade

open Readability

section Notes

/-- The entry of a note about a comment: it stands on its line and has the integer part of its median as its grade. -/
def Value.IsNoteAbout (g : Graded Rat) (v : Value) : Prop :=
  ∃ grade : Int, (grade : Rat) ≤ g.stats.textMedian ∧ g.stats.textMedian < grade + 1 ∧ v.IsNote g.comment.line grade

/-- The note for a comment whose median is above zero. -/
def LevelNote.ofGraded (g : Graded Rat) : LevelNote := ⟨g.comment.line, g.stats.textMedian.floor⟩

theorem LevelNote.isNoteAbout_ofGraded (g : Graded Rat) : (ofGraded g).toValue.IsNoteAbout g := by
  refine ⟨g.stats.textMedian.floor, Rat.floor_le _, ?_, (ofGraded g).isNote_toValue⟩
  exact_mod_cast Rat.lt_floor_add_one g.stats.textMedian

theorem LevelNote.of?_eq (line : Int) (stats : Stats Rat) :
    of? line stats = .ok (if 0 < stats.textMedian then some ⟨line, stats.textMedian.floor⟩ else none) := by
  have hcompare : Number.Placed.compareInt stats.textMedian 0 =
      some (if stats.textMedian < 0 then .lt else if stats.textMedian = 0 then .eq else .gt) := rfl
  rw [of?, hcompare]
  rcases lt_trichotomy stats.textMedian 0 with hlt | heq | hgt
  · rw [if_pos hlt, if_neg hlt.not_gt]
  · rw [heq, if_neg (lt_irrefl 0), if_pos rfl, if_neg (lt_irrefl 0)]
  · rw [if_neg hgt.not_gt, if_neg hgt.ne', if_pos hgt]
    rfl

theorem Analysis.notesOf_eq (graded : List (Graded Rat)) :
    notesOf graded = .ok ((graded.filter fun g => 0 < g.stats.textMedian).map LevelNote.ofGraded) := by
  induction graded with
  | nil => rfl
  | cons g graded ih =>
    rw [notesOf, LevelNote.of?_eq, ih, List.filter_cons]
    by_cases h : 0 < g.stats.textMedian
    · simp [h, bind, Except.bind, pure, Except.pure, LevelNote.ofGraded]
    · simp [h, bind, Except.bind, pure, Except.pure]

end Notes

section Evaluated

variable {f : Formulas Rat}

theorem Readability.Stats.Complete.lookup {cs : List Char} {s : Stats Rat} (h : s.Complete cs) {t : MetricTable}
    {metric : String} (hmetric : metric ∈ t.metrics) : (s.table t).lookup metric = some (s.value t metric) := by
  have hnames : (s.table t).map (·.1) = t.metrics := by
    cases t
    · exact h.counts
    · exact h.averages
    · exact h.scores
  obtain ⟨entry, hentry, rfl⟩ := List.mem_map.mp (hnames ▸ hmetric)
  obtain ⟨x, hx⟩ : ∃ x, (s.table t).lookup entry.1 = some x := by
    rw [← Option.isSome_iff_exists, List.lookup_isSome_iff]
    exact ⟨entry, hentry, beq_self_eq_true _⟩
  rw [Stats.value, hx]
  rfl

end Evaluated

/-- Exactly the kinds of graded comments have a share; these are in percent of the comments, and parts of a hundred. -/
structure SharesOf (graded : List (Graded Rat)) (shares : List (CommentKind × Rat)) : Prop where
  nodup : (shares.map (·.1)).Nodup
  mem : ∀ kind, kind ∈ shares.map (·.1) ↔ ∃ g ∈ graded, g.comment.kind = kind
  share : ∀ e ∈ shares, e.2 = 100 * (graded.countP (·.comment.kind == e.1) : Rat) / graded.length
  sum : graded ≠ [] → (shares.map (·.2)).sum = 100

theorem sharesOf_kindShares (graded : List (Graded Rat)) :
    SharesOf graded (Summary.kindShares (graded.map (·.comment.kind))) where
  nodup := by
    rw [Summary.kinds_kindShares]
    exact nodup_eraseDups _
  mem kind := by
    rw [Summary.kinds_kindShares, List.mem_eraseDups, List.mem_map]
  share e he := by
    rw [Summary.kindShares_eq] at he
    obtain ⟨kind, -, rfl⟩ := List.mem_map.mp he
    rw [List.count_eq_countP, List.countP_map, List.length_map]
    rfl
  sum hne := Summary.sum_kindShares _ (mt List.map_eq_nil_iff.mp hne)

/-- A report about graded comments agrees with them. -/
structure Value.Consistent (number : Rat → Value) (graded : List (Graded Rat)) (report : Value) : Prop where
  comments : ∃ entries, report.at? ["comments"] = some (.list entries) ∧
    List.Forall₂ (fun g v => v.IsComment number g) graded entries
  /-- There is a note, in order, for exactly the comments whose median is above zero. -/
  annotations : ∃ entries, report.at? ["annotations"] = some (.list entries) ∧
    List.Forall₂ IsNoteAbout (graded.filter fun g => 0 < g.stats.textMedian) entries
  total : report.at? ["summary", "total"] = some (.int graded.length)
  kinds : ∃ shares : List (CommentKind × Rat), SharesOf graded shares ∧
    report.at? ["summary", "kinds"] = some (.object (shares.map fun e => (e.1.name, number e.2))) ∧
    ∀ e ∈ shares, report.at? ["summary", "kinds", e.1.name] = some (number e.2)
  median : graded ≠ [] → ∃ median, report.at? ["summary", "median_grade"] = some (number median) ∧
    Summary.IsMedian median (graded.map (·.stats.textMedian))
  /-- Each metric has a box plot and a mean of the values that stand under it in the tables of the comments. -/
  columns : graded ≠ [] → ∀ t : MetricTable, ∀ metric ∈ t.metrics, ∃ (values : List Rat) (fence : Fence Rat) (box : Value),
    graded.map (fun g => (g.stats.table t).lookup metric) = values.map some ∧
      Fence.ofValues? values = .ok (some fence) ∧
      report.at? ["summary", "fences", t.name, metric] = some box ∧ box.IsFence number fence ∧
      report.at? ["summary", "means", t.name, metric] = some (number (values.sum / values.length))
  /-- Without comments the summary is the empty one. -/
  nothing : graded = [] → report.at? ["summary"] = some (Summary.empty.toValue number) ∧
    report.at? ["summary", "total"] = some (.int 0) ∧ report.at? ["summary", "kinds"] = some (.object []) ∧
    report.at? ["summary", "median_grade"] = some .null ∧ ∀ t : MetricTable, ∀ metric ∈ t.metrics,
      report.at? ["summary", "fences", t.name, metric] = some .null ∧
      report.at? ["summary", "means", t.name, metric] = some .null

namespace Summary

theorem tablesValue_at? {s : Summary Rat} {c : MetricTable → String → Column Rat}
    (hcolumns : s.columns = MetricTable.all.map fun t => (t, t.metrics.map (c t)))
    (hmetric : ∀ t metric, (c t metric).metric = metric) (entry : Column Rat → Value) {t : MetricTable}
    {metric : String} (h : metric ∈ t.metrics) :
    (s.tablesValue entry).at? [t.name, metric] = some (entry (c t metric)) := by
  have htables : s.tablesValue entry = .object (MetricTable.all.map fun t =>
      (t.name, .object (t.metrics.map fun metric => (metric, entry (c t metric))))) := by
    simp only [tablesValue, hcolumns, List.map_map, Function.comp_def, hmetric]
  rw [htables, Value.at?_object (Value.lookup_map t.mem_all fun _ _ h => MetricTable.name_injective h),
    Value.at?_object (Value.lookup_map h fun _ _ h => h)]
  rfl

end Summary

namespace Analysis

section Entries

variable (number : Rat → Value) (a : Analysis Rat)

/-- The entries of a report. In exact arithmetic each median has an integer part, so there is a note for each grade. -/
def exactEntries : List (String × Value) :=
  [("file", Value.orNull .str a.file), ("language_id", .str a.languageId), ("supported", .bool a.supported),
    ("comments", .list (a.graded.map (Graded.toValue number))),
    ("annotations",
      .list (((a.graded.filter fun g => 0 < g.stats.textMedian).map LevelNote.ofGraded).map LevelNote.toValue)),
    ("summary", a.summary.toValue number)]

theorem entries_eq : a.entries number = .ok (a.exactEntries number) := by
  rw [Analysis.entries, Analysis.notes, notesOf_eq]
  rfl

theorem at?_summary (keys : List String) :
    (Value.object (a.exactEntries number)).at? ("summary" :: keys) = (a.summary.toValue number).at? keys :=
  Value.at?_object rfl keys

theorem comments_exactEntries : ∃ entries,
    (Value.object (a.exactEntries number)).at? ["comments"] = some (.list entries) ∧
      List.Forall₂ (fun g v => v.IsComment number g) a.graded entries := by
  refine ⟨_, rfl, ?_⟩
  rw [List.forall₂_map_right_iff, List.forall₂_same]
  exact fun g _ => g.isComment_toValue number

theorem annotations_exactEntries : ∃ entries,
    (Value.object (a.exactEntries number)).at? ["annotations"] = some (.list entries) ∧
      List.Forall₂ Value.IsNoteAbout (a.graded.filter fun g => 0 < g.stats.textMedian) entries := by
  refine ⟨_, rfl, ?_⟩
  rw [List.map_map, List.forall₂_map_right_iff, List.forall₂_same]
  exact fun g _ => LevelNote.isNoteAbout_ofGraded g

variable {a}

theorem consistent_of_empty (hgraded : a.graded = []) (hsummary : a.summary = .empty) :
    (Value.object (a.exactEntries number)).Consistent number a.graded where
  comments := comments_exactEntries number a
  annotations := annotations_exactEntries number a
  total := by
    rw [at?_summary, hsummary, hgraded]
    rfl
  kinds := by
    refine ⟨_, sharesOf_kindShares _, by rw [at?_summary, hsummary, hgraded]; rfl, ?_⟩
    rw [hgraded]
    nofun
  median hne := absurd hgraded hne
  columns hne := absurd hgraded hne
  nothing _ := by
    have hcolumns : a.summary.columns = MetricTable.all.map fun t => (t, t.metrics.map fun m => ⟨m, none, none⟩) := by
      rw [hsummary, Summary.empty]
    refine ⟨by rw [at?_summary, hsummary]; rfl, by rw [at?_summary, hsummary]; rfl, by rw [at?_summary, hsummary]; rfl,
      by rw [at?_summary, hsummary]; rfl, fun t metric h => ⟨?_, ?_⟩⟩
    · rw [at?_summary]
      exact Summary.tablesValue_at? hcolumns (fun _ _ => rfl) _ h
    · rw [at?_summary]
      exact Summary.tablesValue_at? hcolumns (fun _ _ => rfl) _ h

theorem consistent_of_about (hne : a.graded ≠ [])
    (hsummary : a.summary.About (a.graded.map (·.stats)) (a.graded.map (·.comment.kind)))
    (hcomplete : ∀ g ∈ a.graded, g.stats.Complete g.comment.text.toList) :
    (Value.object (a.exactEntries number)).Consistent number a.graded where
  comments := comments_exactEntries number a
  annotations := annotations_exactEntries number a
  total := by
    rw [at?_summary]
    change some (Value.int a.summary.total) = _
    rw [hsummary.total, List.length_map]
  kinds := by
    have hshares := sharesOf_kindShares a.graded
    have hkinds : a.summary.kinds = Summary.kindShares (a.graded.map (·.comment.kind)) := hsummary.kinds
    refine ⟨_, hshares, by rw [at?_summary, ← hkinds]; rfl, fun e he => ?_⟩
    have hlookup : ((Summary.kindShares (a.graded.map (·.comment.kind))).map fun k => (k.1.name, number k.2)).lookup
        e.1.name = some (number e.2) := Value.lookup_map he fun b hb hname =>
      List.inj_on_of_nodup_map hshares.nodup hb he (CommentKind.name_injective hname)
    have hkindsAt : (a.summary.toValue number).at? ["kinds", e.1.name] =
        (Value.object (a.summary.kinds.map fun k => (k.1.name, number k.2))).at? [e.1.name] := rfl
    rw [at?_summary, hkindsAt, hkinds, Value.at?_object hlookup]
    rfl
  median _ := by
    obtain ⟨median, hmedian, hgrade⟩ := hsummary.median
    rw [List.map_map] at hmedian
    refine ⟨median, ?_, hmedian⟩
    rw [at?_summary]
    change some (Value.orNull number a.summary.medianGrade) = _
    rw [hgrade]
    rfl
  columns _ t metric h := by
    obtain ⟨c, habout, hcolumns⟩ := hsummary.columns
    have hmetric : ∀ t metric, (c t metric).metric = metric := fun t metric => (habout t metric).metric
    obtain ⟨fence, hvalues, hfence⟩ := (habout t metric).fence
    refine ⟨_, fence, _, ?_, hvalues, ?_, fence.isFence_toValue number, ?_⟩
    · rw [List.map_map, List.map_map]
      exact List.map_congr_left fun g hg => (hcomplete g hg).lookup h
    · rw [at?_summary]
      refine (Summary.tablesValue_at? hcolumns hmetric _ h).trans ?_
      rw [hfence]
      rfl
    · rw [at?_summary]
      refine (Summary.tablesValue_at? hcolumns hmetric _ h).trans ?_
      rw [(habout t metric).mean]
      rfl
  nothing h := absurd h hne

/-- The report of an analysis agrees with its graded comments, if their tables are complete. -/
theorem consistent_exactEntries
    (hsummary : Summary.make (a.graded.map (·.stats)) (a.graded.map (·.comment.kind)) = .ok a.summary)
    (hcomplete : ∀ g ∈ a.graded, g.stats.Complete g.comment.text.toList) :
    (Value.object (a.exactEntries number)).Consistent number a.graded := by
  have hlength : (a.graded.map (·.stats)).length = (a.graded.map (·.comment.kind)).length := by
    rw [List.length_map, List.length_map]
  rcases Summary.make_cases hlength hsummary with ⟨hnil, hempty⟩ | ⟨hne, habout⟩
  · exact consistent_of_empty number (List.map_eq_nil_iff.mp hnil) hempty
  · exact consistent_of_about number (mt List.map_eq_nil_iff.mpr hne) habout hcomplete

end Entries

section Result

variable {f : Formulas Rat} {s : Settings Bool} {id : String} {file : Option String} {text : String}

/-- Every text has a report, which is about its comments, all of them, and agrees with them. -/
theorem exists_report_consistent (f : Formulas Rat) (hf : ∀ cs, f.Foreseen cs) (s : Settings Bool) (id : String)
    (file : Option String) (text : String) (number : Rat → Value) :
    ∃ (a : Analysis Rat) (entries : List (String × Value)),
      ofText f s id file text = .ok a ∧ a.entries number = .ok entries ∧
        a.graded.map (·.comment) = commentsOf s id text.toList ∧
        (∀ g ∈ a.graded, evaluateWith f g.comment.text.toList = .ok g.stats) ∧
        ((profileOf s id).supported = false → a.graded = []) ∧
        (Value.object entries).Consistent number a.graded := by
  obtain ⟨a, ha⟩ : ∃ a, ofText f s id file text = .ok a :=
    exists_ofText_iff.mpr fun c _ => ⟨_, evaluateWith_eq (hf c.text.toList)⟩
  have hcomments := comments_of_ofText ha
  have hevaluated := evaluated_of_ofText ha
  refine ⟨a, _, ha, entries_eq number a, hcomments, hevaluated, fun hs => ?_, ?_⟩
  · rw [commentsOf_of_unsupported hs] at hcomments
    exact List.map_eq_nil_iff.mp hcomments
  · refine consistent_exactEntries number (summary_of_ofText ha) fun g hg => ?_
    have hstats : g.stats = settledStats f g.comment.text.toList :=
      Except.ok.inj ((hevaluated g hg).symm.trans (evaluateWith_eq (hf _)))
    rw [hstats]
    exact complete_settledStats f _

end Result

theorem constantFormulas_foreseen (cs : List Char) :
    (constantFormulas (.whole 3) : Formulas Rat).Foreseen cs := by
  have hsmall : 3 ≤ Number.greatestDouble := Number.le_greatestDouble (by decide)
  simp [Formulas.Foreseen, Formulas.countOutcomes, Formulas.scoreOutcomes, constantFormulas, Outcome.Foreseen, hsmall]

/-- The report of a text with a comment of each kind, which are found in the order of their kinds. -/
theorem exists_report_consistent_kinds :
    let f : Formulas Rat := constantFormulas (.whole 3)
    let s : Settings Bool := Settings.defaults id
    let text := "// a\n /** b */\n /* c */"
    let number (x : Rat) : Value := .int x.floor
    (∀ cs, f.Foreseen cs) ∧ ∃ (a : Analysis Rat) (entries : List (String × Value)),
      ofText f s "javascript" none text = .ok a ∧ a.entries number = .ok entries ∧
        a.graded.map (·.comment.line) = [0, 2, 1] ∧ (Value.object entries).Consistent number a.graded ∧
        (Value.object entries).at? ["summary", "total"] = some (.int 3) := by
  intro f s text number
  have hf : ∀ cs, f.Foreseen cs := constantFormulas_foreseen
  obtain ⟨a, entries, ha, hentries, hcomments, -, -, hconsistent⟩ :=
    exists_report_consistent f hf s "javascript" none text number
  have hfound : a.graded.map (·.comment) =
      [⟨.line, 3, 4, 0, "a"⟩, ⟨.block, 19, 21, 2, "c "⟩, ⟨.doc, 9, 12, 1, " b "⟩] :=
    hcomments.trans (by decide +kernel)
  have hlines : a.graded.map (·.comment.line) = (a.graded.map (·.comment)).map (·.line) := List.map_map.symm
  have hlength : a.graded.length = 3 := by
    rw [← List.length_map (·.comment), hfound]
    rfl
  refine ⟨hf, a, entries, ha, hentries, by rw [hlines, hfound]; rfl, hconsistent, ?_⟩
  rw [hconsistent.total, hlength]
  rfl

end Analysis

end CommentGrade
