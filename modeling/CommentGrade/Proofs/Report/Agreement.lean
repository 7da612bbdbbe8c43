import CommentGrade.Proofs.CommandLine.Runs
import CommentGrade.Proofs.Report.Consistency
import CommentGrade.Proofs.Report.Documents
import CommentGrade.Proofs.Report.Snippet

/-!
# Both reports say the same

The report in lines and the structured report find the notes of a file by two walks. Both come upon the same comments:
a line is printed for exactly the annotations from the wanted grade on, in their order, and it says where the comment
is and what the annotation says. So the two reports of a run agree, file by file.
-/
namespace CommentGrade

open Number Readability Report

section Findings

variable {α : Type} [OfScientific α] [Placed α]

/-- The finding that a note is shown as. -/
def findingOf (text : List Char) (p : Graded α × LevelNote) : Finding :=
  ⟨Report.placeOf text p.1.comment p.2, p.2, snippet p.1.comment.text.toList⟩

/-- The findings among comments are their notes from a grade on, and fail where these do. -/
theorem findingsOf_eq (text : List Char) (minGrade : Int) (graded : List (Graded α)) :
    findingsOf text minGrade graded = (Analysis.notesOf graded).map fun _ =>
      ((noted graded).filter (minGrade ≤ ·.2.grade)).map (findingOf text) := by
  induction graded with
  | nil => rfl
  | cons g graded ih =>
    rw [findingsOf, Analysis.notesOf, ih]
    cases hnote : LevelNote.of? g.comment.line g.stats with
    | error e => rfl
    | ok note =>
      cases Analysis.notesOf graded with
      | error e => rfl
      | ok notes =>
        cases note with
        | none => rw [noted_cons_none hnote]; rfl
        | some n =>
          rw [noted_cons_some hnote, List.filter_cons]
          by_cases hgrade : n.grade < minGrade
          · rw [if_neg (by simpa using hgrade)]
            exact if_pos hgrade
          · rw [if_pos (by simpa using hgrade)]
            exact if_neg hgrade

end Findings

/-- What both reports print about a file: its entry in the structured report, and in the report in lines the lines of its
annotations and the other ones. -/
structure FileReport where
  structured : Value
  shown : List String
  after : List String

namespace FileReport

/-- Where an annotation is shown, and how its comment is shown on one line. -/
structure Shows (text : List Char) (c : Comment) (column : Nat) (snippet : List Char) : Prop where
  /-- The column is that of the start of the comment, if this is on the line of the annotation. -/
  column_eq : column = if (Text.positionAt text c.start).line = c.line then (Text.positionAt text c.start).column else 0
  /-- The place is one of the text, not behind the start of the comment. -/
  position : ∃ i : Nat, i ≤ c.start ∧ (Text.positionAt text i).line = c.line ∧ (Text.positionAt text i).column = column
  length_le : snippet.length ≤ 60
  flat : IsFlat snippet
  eq_blank : ∀ x ∈ snippet, Text.isBlank x = true → x = ' '
  words : [' '].intercalate (Text.words c.text.toList) = snippet ∨
    ([' '].intercalate (Text.words c.text.toList)).take 57 ++ ['.', '.', '.'] = snippet

/-- The line of an annotation: the place of its comment, counted from one, what it says, and the comment itself. -/
def IsLineOf (place : String) (text : List Char) (c : Comment) (grade : Int) (line : String) : Prop :=
  ∃ column snippet, Shows text c column snippet ∧
    line = place ++ ":" ++ toString (c.line + 1) ++ ":" ++ toString (column + 1) ++ ": " ++ Grade.title grade ++ " | " ++
      String.ofList snippet

variable {α : Type} [OfScientific α] [Placed α]

/-- Both reports say the same about a file. -/
structure Agrees (fixed : Nat → α → String) (v : View) (place : Option String → String) (a : Analysis α)
    (f : FileReport) : Prop where
  file : f.structured.at? ["file"] = some (Value.orNull .str a.file)
  /-- A line is shown for exactly the annotations from the wanted grade on. They are about comments in order, and each
  has the line of its comment and the same grade and title in both reports. -/
  annotations : ∃ (pairs : List (Graded α × Int)) (entries : List Value), (pairs.map (·.1)).Sublist a.graded ∧
    (∀ p ∈ pairs, Placed.floor p.1.stats.textMedian = .ok p.2) ∧
    f.structured.at? ["annotations"] = some (.list entries) ∧
    List.Forall₂ (fun p e => e.IsNote p.1.comment.line p.2) pairs entries ∧
    List.Forall₂ (fun p line => IsLineOf (place a.file) a.text.toList p.1.comment p.2 line)
      (pairs.filter (v.minGrade ≤ ·.2)) f.shown
  /-- The other lines are the reading time and the summary, where these are wanted. -/
  after : ∀ clock, (v.readingTime = true → ReadingTime.estimate a.text.toList 0 ReadingTime.usualSpeed = .ok clock) →
    f.after = (if v.readingTime then [place a.file ++ ": Est " ++ clock.text ++ " min"] else []) ++
      if v.summary then (place a.file ++ ":") :: summaryLines fixed a.summary else []

/-- The lines of a file in the report in lines. -/
def lines (f : FileReport) : List String := f.shown ++ f.after

/-- The entries of an analysis in the structured report. -/
def entriesOf (number : α → Value) (a : Analysis α) : List (String × Value) :=
  [("file", Value.orNull .str a.file),
    ("language_id", .str a.languageId),
    ("supported", .bool a.supported),
    ("comments", .list (a.graded.map (Graded.toValue number))),
    ("annotations", .list (((noted a.graded).map (·.2)).map LevelNote.toValue)),
    ("summary", a.summary.toValue number)]

/-- The same reports with other floats. -/
def mapFloats (g : Float → Float) (f : FileReport) : FileReport := { f with structured := f.structured.mapFloats g }

/-- The reports of an analysis. -/
def ofAnalysis (number : α → Value) (fixed : Nat → α → String) (v : View)
    (place : Option String → String) (a : Analysis α) : FileReport where
  structured := .object (entriesOf number a)
  shown := (((noted a.graded).filter (v.minGrade ≤ ·.2.grade)).map (findingOf a.text.toList)).map
    (Finding.text (place a.file))
  after := (trailer fixed v (place a.file) a).toOption.getD []

omit [OfScientific α] [Placed α] in
theorem shows_findingOf {text : List Char} {g : Graded α} {n : LevelNote} (hg : Comment.WellPlaced text g.comment)
    (hn : n.line = g.comment.line) :
    Shows text g.comment (findingOf text (g, n)).position.column (findingOf text (g, n)).snippet ∧
      (findingOf text (g, n)).position.line = g.comment.line := by
  have hstart : g.comment.start ≤ text.length := Nat.le_trans (Nat.le_of_lt hg.start_lt_stop) hg.stop_le_length
  have hplace : (findingOf text (g, n)).position = if (Text.positionAt text g.comment.start).line = g.comment.line
      then Text.positionAt text g.comment.start else ⟨g.comment.line, 0⟩ := by
    change Report.placeOf text g.comment n = _
    rw [Report.placeOf, hn]
    simp only [Int.natCast_inj, Int.toNat_natCast]
  refine ⟨⟨?_, ?_, length_snippet_le _, isFlat_snippet _, (isFlat_snippet _).eq_blank, ?_⟩, ?_⟩
  · rw [hplace]
    split_ifs <;> rfl
  · rw [hplace]
    split_ifs with hsame
    · exact ⟨g.comment.start, Nat.le_refl _, hsame, rfl⟩
    · obtain ⟨i, hi, hi_line, hi_column⟩ := Text.exists_lineStart hstart hg.line_le_start
      rw [Text.positionAt_of_le hstart] at hsame
      refine ⟨i, hi, ?_, ?_⟩
      · rw [Text.positionAt_of_le (Nat.le_trans hi hstart), hi_line]
      · rw [Text.positionAt_of_le (Nat.le_trans hi hstart), hi_column]
  · change _ = snippet _ ∨ _ = snippet _
    unfold snippet
    dsimp only
    split_ifs
    · exact .inr rfl
    · exact .inl rfl
  · rw [hplace]
    split_ifs with hsame
    · exact hsame
    · rfl

theorem agrees_ofAnalysis (number : α → Value) (fixed : Nat → α → String) (v : View) (place : Option String → String)
    {a : Analysis α} (ha : ∀ g ∈ a.graded, Comment.WellPlaced a.text.toList g.comment) :
    (ofAnalysis number fixed v place a).Agrees fixed v place a where
  file := rfl
  annotations := by
    have hnoted : ∀ p ∈ noted a.graded, p.2.line = p.1.comment.line ∧
        Placed.floor p.1.stats.textMedian = .ok p.2.grade := fun p hp => LevelNote.line_grade_of? (mem_noted hp).2
    refine ⟨(noted a.graded).map fun p => (p.1, p.2.grade), ((noted a.graded).map (·.2)).map LevelNote.toValue,
      ?_, ?_, rfl, ?_, ?_⟩
    · rw [List.map_map]
      exact map_fst_noted a.graded
    · exact List.forall_mem_map.mpr fun p hp => (hnoted p hp).2
    · rw [List.map_map, List.forall₂_map_left_iff, List.forall₂_map_right_iff, List.forall₂_same]
      exact fun p hp => (hnoted p hp).1 ▸ p.2.isNote_toValue
    · rw [List.filter_map, List.forall₂_map_left_iff, ofAnalysis, List.forall₂_map_right_iff,
        List.forall₂_map_right_iff]
      refine List.forall₂_same.mpr fun p hp => ?_
      have hmem := (List.mem_filter.mp hp).1
      obtain ⟨hshows, hline⟩ := shows_findingOf (ha p.1 (mem_noted hmem).1) (hnoted p hmem).1
      refine ⟨_, _, hshows, ?_⟩
      rw [← hline]
      rfl
  after := by
    intro clock hclock
    rw [ofAnalysis, trailer]
    cases hshown : v.readingTime with
    | false => rfl
    | true =>
      rw [readingTimeLine, hclock hshown]
      rfl

/-- Whatever floats are read as, reports that agree agree still. -/
theorem Agrees.mapFloats {fixed : Nat → α → String} {v : View} {place : Option String → String} {a : Analysis α}
    {f : FileReport} (h : f.Agrees fixed v place a) (g : Float → Float) : (f.mapFloats g).Agrees fixed v place a where
  file := by
    change (f.structured.mapFloats g).at? ["file"] = _
    rw [Value.at?_mapFloats, h.file]
    cases a.file <;> rfl
  annotations := by
    obtain ⟨pairs, entries, hsublist, hfloor, hentries, hnotes, hlines⟩ := h.annotations
    refine ⟨pairs, entries.map (.mapFloats g), hsublist, hfloor, ?_, ?_, hlines⟩
    · change (f.structured.mapFloats g).at? ["annotations"] = _
      rw [Value.at?_mapFloats, hentries, Option.map_some, Value.mapFloats_list]
    · rw [List.forall₂_map_right_iff]
      exact hnotes.imp fun _ _ hnote => hnote.mapFloats g
  after := h.after

section Reports

variable {number : α → Value} {fixed : Nat → α → String} {v : View}
  {place : Option String → String}

theorem entries_eq {a : Analysis α} {notes : List LevelNote} (h : a.notes = .ok notes) :
    a.entries number = .ok (entriesOf number a) := by
  obtain rfl := notesOf_eq_map h
  rw [Analysis.entries, h]
  rfl

theorem structuredReport_eq {as : List (Analysis α)} (h : ∀ a ∈ as, ∃ notes, a.notes = .ok notes) :
    CommandLine.structuredReport number as = .ok (as.map fun a => (ofAnalysis number fixed v place a).structured) := by
  induction as with
  | nil => rfl
  | cons a as ih =>
    obtain ⟨⟨notes, hnotes⟩, hrest⟩ := List.forall_mem_cons.mp h
    rw [CommandLine.structuredReport, ih hrest, entries_eq hnotes]
    rfl

theorem structuredReport_error {as : List (Analysis α)} {a : Analysis α} {e : NotFinite} (ha : a ∈ as)
    (h : a.notes = .error e) : ∃ d, CommandLine.structuredReport number as = .error d := by
  induction as with
  | nil => cases ha
  | cons b as ih =>
    rw [CommandLine.structuredReport]
    cases hb : b.entries number with
    | error d => exact ⟨d, rfl⟩
    | ok entries =>
      rcases List.mem_cons.mp ha with rfl | ha
      · rw [Analysis.entries, h] at hb
        cases hb
      · obtain ⟨d, hd⟩ := ih ha
        exact ⟨d, bind_eq_error_iff.mpr (.inr ⟨_, rfl, bind_eq_error_iff.mpr (.inl hd)⟩)⟩

theorem findings_eq (hv : v.notes = true) (a : Analysis α) : v.findings a = a.notes.map fun _ =>
    ((noted a.graded).filter (v.minGrade ≤ ·.2.grade)).map (findingOf a.text.toList) := by
  rw [View.findings, if_pos hv]
  exact findingsOf_eq _ _ _

omit [Placed α] in
theorem readingTime_of_trailer_error {file : String} {a : Analysis α} {e : ReportError}
    (h : trailer fixed v file a = .error e) : v.readingTime = true ∧
      ∃ d, ReadingTime.estimate a.text.toList 0 ReadingTime.usualSpeed = .error d ∧ e = .readingTime d := by
  unfold trailer at h
  cases hshown : v.readingTime with
  | false =>
    rw [hshown] at h
    cases h
  | true =>
    rw [hshown] at h
    rcases bind_eq_error_iff.mp h with htime | ⟨_, -, hpure⟩
    · have hline := map_eq_error_iff.mp htime
      unfold readingTimeLine at hline
      split at hline
      · cases hline
      · next d hd =>
        cases hline
        exact ⟨rfl, d, hd, rfl⟩
    · cases hpure

/-- The report in lines of analyses whose comments have notes: the lines of the files one after the other, unless the
reading time of one fails. -/
theorem fileLines_cases (number : α → Value) (hv : v.notes = true) {as : List (Analysis α)}
    (h : ∀ a ∈ as, ∃ notes, a.notes = .ok notes) :
    fileLines fixed v place as = .ok (as.flatMap fun a => (ofAnalysis number fixed v place a).lines,
        (as.map fun a => (ofAnalysis number fixed v place a).shown.length).sum) ∨
      ∃ a ∈ as, ∃ e, trailer fixed v (place a.file) a = .error e ∧ fileLines fixed v place as = .error e := by
  induction as with
  | nil => exact .inl rfl
  | cons a as ih =>
    obtain ⟨⟨notes, hnotes⟩, hrest⟩ := List.forall_mem_cons.mp h
    rw [fileLines, findings_eq hv, hnotes]
    cases hafter : trailer fixed v (place a.file) a with
    | error e => exact .inr ⟨a, List.mem_cons_self, e, hafter, rfl⟩
    | ok after =>
      rcases ih hrest with hlines | ⟨b, hb, e, hfails, hlines⟩
      · left
        have hof : (ofAnalysis number fixed v place a).after = after := by
          rw [ofAnalysis, hafter]
          rfl
        have hlength : (ofAnalysis number fixed v place a).shown.length =
            (((noted a.graded).filter (v.minGrade ≤ ·.2.grade)).map (findingOf a.text.toList)).length :=
          List.length_map _
        rw [hlines, List.flatMap_cons, List.map_cons, List.sum_cons, lines, hof, hlength]
        rfl
      · right
        refine ⟨b, List.mem_cons_of_mem a hb, e, hfails, ?_⟩
        rw [hlines]
        rfl

theorem fileLines_error (hv : v.notes = true) {as : List (Analysis α)} {a : Analysis α} {e : NotFinite} (ha : a ∈ as)
    (h : a.notes = .error e) : ∃ d, fileLines fixed v place as = .error d := by
  induction as with
  | nil => cases ha
  | cons b as ih =>
    rw [fileLines, findings_eq hv]
    cases hb : b.notes with
    | error d => exact ⟨_, rfl⟩
    | ok notes =>
      cases trailer fixed v (place b.file) b with
      | error d => exact ⟨d, rfl⟩
      | ok after =>
        rcases List.mem_cons.mp ha with rfl | ha
        · exact nomatch hb.symm.trans h
        · obtain ⟨d, hd⟩ := ih ha
          rw [hd]
          exact ⟨d, rfl⟩

end Reports

end FileReport

namespace CommandLine

section Printed

variable {α : Type} [OfScientific α] [Placed α] [BEq α] {env : Environment α} {disk : Disk} {o : Options}
  {s : Settings Bool} {as : List (Analysis α)}

/-- The reports of the files of a run, one by one. -/
def fileReports (env : Environment α) (disk : Disk) (o : Options) (s : Settings Bool) (as : List (Analysis α)) :
    List FileReport :=
  as.map (FileReport.ofAnalysis (fun x => .float (env.number x)) env.fixed (o.view s) (placeOf disk))

theorem report_structured (ho : o.structured = true) (h : ∀ a ∈ as, ∃ notes, a.notes = .ok notes) :
    report env disk o s as = .ok (Json.document (.list ((fileReports env disk o s as).map (·.structured))) ++ "\n") := by
  rw [report, if_pos ho, FileReport.structuredReport_eq h, fileReports, List.map_map]
  rfl

theorem report_lines_cases (ho : o.structured = false) (hv : (o.view s).notes = true)
    (h : ∀ a ∈ as, ∃ notes, a.notes = .ok notes) :
    report env disk o s as = .ok (printedLines ((fileReports env disk o s as).flatMap FileReport.lines ++ [totalLine
        ((fileReports env disk o s as).map (·.shown.length)).sum (fileReports env disk o s as).length])) ∨
      o.readingTime = true ∧ ∃ a ∈ as, ∃ d, ReadingTime.estimate a.text.toList 0 ReadingTime.usualSpeed = .error d ∧
        report env disk o s as = .error (.readingTime d) := by
  have hreport : report env disk o s as = (fileLines env.fixed (o.view s) (placeOf disk) as >>= fun r =>
      .ok (r.1 ++ [totalLine r.2 as.length])).map printedLines := if_neg (Bool.eq_false_iff.mp ho)
  rw [hreport]
  rcases FileReport.fileLines_cases (fun x => .float (env.number x)) hv h with hprinted | ⟨a, ha, e, hfails, hprinted⟩
  · left
    rw [hprinted, fileReports, List.flatMap_map, List.map_map, List.length_map]
    rfl
  · right
    obtain ⟨htime, d, hd, rfl⟩ := FileReport.readingTime_of_trailer_error hfails
    rw [hprinted]
    exact ⟨(Bool.and_eq_true_iff.mp htime).1, a, ha, d, hd, rfl⟩

theorem exists_report_error (hv : (o.view s).notes = true) {a : Analysis α} (ha : a ∈ as) {e : NotFinite}
    (h : a.notes = .error e) : ∃ d, report env disk o s as = .error d := by
  unfold report
  split_ifs
  · obtain ⟨d, hd⟩ := FileReport.structuredReport_error ha h
    rw [hd]
    exact ⟨.grade d, rfl⟩
  · obtain ⟨d, hd⟩ := FileReport.fileLines_error hv ha h
    rw [Report.lines, hd]
    exact ⟨d, rfl⟩

end Printed

variable {α : Type} [Add α] [Sub α] [Mul α] [Div α] [OfScientific α] [NatCast α] [LE α] [DecidableLE α] [LT α]
  [DecidableLT α] [BEq α] [Measure α] [Placed α]

variable {env : Environment α} {disk : Disk} {o : Options} {s : Settings Bool} {paths : List String}

/-- The document of a run with the structured report is read back as its entries, unless a number is too long. -/
theorem exists_read_document_of_short (hdefined : ∀ a ∈ analysesOf env disk o s paths, ∃ notes, a.notes = .ok notes)
    (hshort : ∀ a ∈ analysesOf env disk o s paths, a.Short) :
    ∃ g, let files := fileReports env disk o s (analysesOf env disk o s paths)
      Json.read (Json.document (.list (files.map (·.structured))) ++ "\n") =
        .ok (.list ((files.map (·.mapFloats g)).map (·.structured))) := by
  obtain ⟨g, hread⟩ := Json.exists_read_document
  refine ⟨g, ?_⟩
  dsimp only
  rw [hread, Value.mapFloats_list, List.map_map, List.map_map]
  · rfl
  · refine .list ?_
    rw [fileReports, List.map_map]
    refine List.forall_mem_map.mpr fun a ha => ?_
    obtain ⟨id, file, text, hof⟩ := exists_ofText_of_mem ha
    obtain ⟨notes, hnotes⟩ := hdefined a ha
    exact Analysis.writable_entries (fun x => .float (env.number x)) hof (hshort a ha) (FileReport.entries_eq hnotes)
  · intro c hc
    obtain rfl : c = '\n' := by simpa using hc
    rfl

/-- A run with the report in lines and one with the structured report, whatever else is chosen, with settings that show
annotations. Both reports are about the same files in the same order and say the same about each: the structured one is
the document of the entries of the files, which are read back from it but for the floats, the other one has the lines of
the files, and last of all a line with the numbers of the annotations shown and of the files. Both runs fail if a median
has no integer part, and the report in lines fails if the reading time is asked for and there is none. -/
theorem reports_agree (env : Environment α) {lineArguments structuredArguments : List String}
    (hlist : o.listLanguages = false) (hs : o.settings env.yaml disk = .ok s) (hnotes : s.showNotes = true)
    (hline : Options.parse lineArguments = .ok ({ o with structured := false }, paths))
    (hstructured : Options.parse structuredArguments = .ok ({ o with structured := true }, paths)) :
    let as := analysesOf env disk o s paths
    let view : View := ⟨true, o.minGrade, o.readingTime && s.estimatedReadingTime, o.summary⟩
    let output (printed : String) : Output := ⟨exitCode o as, printed, messagesOf env disk o s paths⟩
    ((∃ a ∈ as, ∃ g ∈ a.graded, ∃ e, Placed.floor g.stats.textMedian = .error e) ∧
      (∃ d, run env disk lineArguments = .error (.report d)) ∧
      ∃ d, run env disk structuredArguments = .error (.report d)) ∨
    ∃ files : List FileReport, List.Forall₂ (FileReport.Agrees env.fixed view (placeOf disk)) as files ∧
      let json := Json.document (.list (files.map (·.structured))) ++ "\n"
      run env disk structuredArguments = .ok (output json) ∧
      ((∀ a ∈ as, a.Short) → ∃ g, Json.read json = .ok (.list ((files.map (·.mapFloats g)).map (·.structured))) ∧
        List.Forall₂ (FileReport.Agrees env.fixed view (placeOf disk)) as (files.map (·.mapFloats g))) ∧
      (run env disk lineArguments = .ok (output (String.join ((files.flatMap (fun f => f.shown ++ f.after) ++
          ["Total: " ++ toString (files.map (·.shown.length)).sum ++ " comment(s) in " ++ toString files.length ++
            " file(s)"]).map (· ++ "\n")))) ∨
        o.readingTime = true ∧ ∃ a ∈ as, ∃ d, ReadingTime.estimate a.text.toList 0 ReadingTime.usualSpeed = .error d ∧
          run env disk lineArguments = .error (.report (.readingTime d))) := by
  intro as view output
  have hview : o.view s = view := by rw [Options.view, hnotes]
  have hrunLines : run env disk lineArguments =
      ((report env disk { o with structured := false } s as).mapError .report).map output := run_eq hline hlist hs
  have hrunStructured : run env disk structuredArguments =
      ((report env disk { o with structured := true } s as).mapError .report).map output := run_eq hstructured hlist hs
  rw [hrunLines, hrunStructured]
  rcases forall_notes_or_error as with hall | ⟨a, ha, e, he, g, hg, hfloor⟩
  · right
    have hdefined : ∀ a ∈ as, ∃ notes, a.notes = .ok notes := fun a ha => ⟨_, hall a ha⟩
    have hagrees : List.Forall₂ (FileReport.Agrees env.fixed view (placeOf disk)) as (fileReports env disk o s as) := by
      rw [fileReports, List.forall₂_map_right_iff, List.forall₂_same, hview]
      exact fun a ha => FileReport.agrees_ofAnalysis _ _ _ _ (wellPlaced_of_mem ha)
    refine ⟨fileReports env disk o s as, hagrees, ?_, fun hshort => ?_, ?_⟩
    · rw [report_structured rfl hdefined]
      rfl
    · obtain ⟨g, hread⟩ := exists_read_document_of_short hdefined hshort
      refine ⟨g, hread, ?_⟩
      rw [List.forall₂_map_right_iff]
      exact hagrees.imp fun _ _ h => h.mapFloats g
    · rcases report_lines_cases (o := { o with structured := false }) rfl hnotes hdefined with
        hprinted | ⟨htime, a, ha, d, hd, hprinted⟩
      · left
        rw [hprinted]
        rfl
      · right
        rw [hprinted]
        exact ⟨htime, a, ha, d, hd, rfl⟩
  · left
    have hfails (structured : Bool) : ∃ d, report env disk { o with structured } s as = .error d :=
      exists_report_error hnotes ha he
    obtain ⟨d, hd⟩ := hfails false
    obtain ⟨d', hd'⟩ := hfails true
    refine ⟨⟨a, ha, g, hg, e, hfloor⟩, ⟨d, ?_⟩, d', ?_⟩
    · rw [hd]
      rfl
    · rw [hd']
      rfl

/-- Exact arithmetic with formulas that say the same about every text. -/
def constantEnvironment (outcome : Outcome Rat) : Environment Rat where
  formulas := Analysis.constantFormulas outcome
  number x := Float.ofInt x.floor
  fixed _ x := toString x.floor
  likeness _ _ := 0
  likenessThreshold := 80
  yaml _ := .error .malformed

/-- A file with a block that is opened on its second line and says something on the third. -/
def blockDisk : Disk where
  tree := .directory [("r", .directory [("a.js", .file "\n  /**\n   *  some words */".toUTF8.toList)])]
  place := ["r"]

theorem textMedian_block {a : Analysis Rat}
    (ha : a ∈ analysesOf (constantEnvironment (.whole 3)) blockDisk {} (Settings.defaults id) ["a.js"])
    {g : Graded Rat} (hg : g ∈ a.graded) : 2 < g.stats.textMedian ∧ g.stats.textMedian < 20 := by
  have hcomments : ∀ a ∈ analysesOf (constantEnvironment (.whole 3)) blockDisk {} (Settings.defaults id) ["a.js"],
      ∀ g ∈ a.graded, g.comment.text = "\n   *  some words " := by decide +kernel
  obtain ⟨_, _, _, hofText⟩ := exists_ofText_of_mem ha
  have hstats : evaluateWith (Analysis.constantFormulas (.whole 3)) g.comment.text.toList = .ok g.stats :=
    Analysis.evaluated_of_ofText hofText g hg
  rw [hcomments a ha g hg, evaluateWith_eq (Analysis.constantFormulas_foreseen _)] at hstats
  rw [← Except.ok.inj hstats, textMedian_settledStats (by decide +kernel) (by decide +kernel)]
  exact medianOfEight_between rfl (by decide +kernel)

/-- Both reports about the block have its one annotation. -/
theorem reports_agree_block :
    let env := constantEnvironment (.whole 3)
    let o : Options := {}
    let s : Settings Bool := Settings.defaults id
    o.listLanguages = false ∧ o.settings env.yaml blockDisk = .ok s ∧ s.showNotes = true ∧
      Options.parse ["a.js"] = .ok ({ o with structured := false }, ["a.js"]) ∧
      Options.parse ["--json", "a.js"] = .ok ({ o with structured := true }, ["a.js"]) ∧
      ∃ files : List FileReport, files.length = 1 ∧
        List.Forall₂ (FileReport.Agrees env.fixed ⟨true, 0, false, false⟩ (placeOf blockDisk))
          (analysesOf env blockDisk o s ["a.js"]) files ∧
        let json := Json.document (.list (files.map (·.structured))) ++ "\n"
        run env blockDisk ["--json", "a.js"] = .ok ⟨0, json, []⟩ ∧
        (∃ g, Json.read json = .ok (.list ((files.map (·.mapFloats g)).map (·.structured)))) ∧
        run env blockDisk ["a.js"] = .ok ⟨0, String.join ((files.flatMap (fun f => f.shown ++ f.after) ++
          ["Total: " ++ toString (files.map (·.shown.length)).sum ++ " comment(s) in " ++ toString files.length ++
            " file(s)"]).map (· ++ "\n")), []⟩ := by
  intro env o s
  have hs : o.settings env.yaml blockDisk = .ok s := rfl
  have hline : Options.parse ["a.js"] = .ok ({ o with structured := false }, ["a.js"]) := by decide +kernel
  have hstructured : Options.parse ["--json", "a.js"] = .ok ({ o with structured := true }, ["a.js"]) := by
    decide +kernel
  have hone : (analysesOf env blockDisk o s ["a.js"]).length = 1 := by decide +kernel
  have hmessages : messagesOf env blockDisk o s ["a.js"] = [] := by decide +kernel
  have hshort : ∀ a ∈ analysesOf env blockDisk o s ["a.js"], a.Short := by
    have hsizes : ∀ a ∈ analysesOf env blockDisk o s ["a.js"], a.text.toList.length < 10 ^ Number.maxDigits ∧
        a.graded.length < 10 ^ Number.maxDigits := by decide +kernel
    intro a ha
    refine ⟨(hsizes a ha).1, (hsizes a ha).2, fun g hg grade hgrade => ?_⟩
    obtain ⟨hlow, hhigh⟩ := textMedian_block ha hg
    have hfloor : g.stats.textMedian.floor = grade := Except.ok.inj hgrade
    have hnonneg : 2 ≤ grade := hfloor ▸ Rat.le_floor_iff.mpr hlow.le
    have hlt : grade < 20 := hfloor ▸ Rat.floor_lt_iff.mpr hhigh
    have hlarge : 20 < 10 ^ Number.maxDigits := by decide +kernel
    omega
  refine ⟨rfl, hs, rfl, hline, hstructured, ?_⟩
  rcases reports_agree env rfl hs rfl hline hstructured with
    ⟨⟨_, -, _, -, _, hfloor⟩, -⟩ | ⟨files, hfiles, hjson, hread, hlines | ⟨htime, -⟩⟩
  · cases hfloor
  · rw [hmessages] at hjson hlines
    obtain ⟨g, hg, -⟩ := hread hshort
    exact ⟨files, hfiles.length_eq ▸ hone, hfiles, hjson, ⟨g, hg⟩, hlines⟩
  · cases htime

end CommandLine

end CommentGrade
