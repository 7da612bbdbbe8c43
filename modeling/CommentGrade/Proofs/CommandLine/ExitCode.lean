import CommentGrade.Proofs.Number.Placed
import CommentGrade.Proofs.Report.Agreement
import CommentGrade.Proofs.Settings.Failures

/-!
# The code of a run

A run with settings ends with code 1 exactly if a limit is given and the median of some comment is above it, else with
code 0. What is printed about the comments does not count, nor does the number of workers. The limit and the grades
that annotations show fit each other up to the fractions that the grades leave out.
-/
namespace CommentGrade

open Number Readability Report

section Failures

variable {α : Type} [OfScientific α] [Placed α]

theorem exists_of_structuredReport_error {number : α → Value} {as : List (Analysis α)} {e : NotFinite}
    (h : CommandLine.structuredReport number as = .error e) : ∃ a ∈ as, ∃ d, a.notes = .error d := by
  induction as with
  | nil => cases h
  | cons a as ih =>
    rcases bind_eq_error_iff.mp h with hentries | ⟨_, -, hrest⟩
    · rcases bind_eq_error_iff.mp hentries with hnotes | ⟨_, -, hpure⟩
      · exact ⟨a, List.mem_cons_self, e, hnotes⟩
      · cases hpure
    · rcases bind_eq_error_iff.mp hrest with hlater | ⟨_, -, hpure⟩
      · obtain ⟨b, hb, hnotes⟩ := ih hlater
        exact ⟨b, List.mem_cons_of_mem a hb, hnotes⟩
      · cases hpure

theorem notes_of_findings_error {v : View} {a : Analysis α} {e : NotFinite} (h : v.findings a = .error e) :
    a.notes = .error e := by
  unfold View.findings at h
  split_ifs at h
  exact map_eq_error_iff.mp ((findingsOf_eq _ _ _).symm.trans h)

theorem exists_of_fileLines_error {fixed : Nat → α → String} {v : View} {place : Option String → String}
    {as : List (Analysis α)} {e : ReportError} (h : fileLines fixed v place as = .error e) :
    (∃ a ∈ as, ∃ d, a.notes = .error d) ∨ ∃ a ∈ as, ∃ d, trailer fixed v (place a.file) a = .error d := by
  induction as with
  | nil => cases h
  | cons a as ih =>
    rcases bind_eq_error_iff.mp h with hfound | ⟨_, -, hrest⟩
    · obtain ⟨d, hd, -⟩ := mapError_eq_error_iff.mp hfound
      exact .inl ⟨a, List.mem_cons_self, d, notes_of_findings_error hd⟩
    · rcases bind_eq_error_iff.mp hrest with hafter | ⟨_, -, hrest⟩
      · exact .inr ⟨a, List.mem_cons_self, e, hafter⟩
      · rcases bind_eq_error_iff.mp hrest with hlater | ⟨_, -, hpure⟩
        · rcases ih hlater with ⟨b, hb, hnotes⟩ | ⟨b, hb, hafter⟩
          · exact .inl ⟨b, List.mem_cons_of_mem a hb, hnotes⟩
          · exact .inr ⟨b, List.mem_cons_of_mem a hb, hafter⟩
        · cases hpure

end Failures

namespace CommandLine

section Codes

variable {α : Type} [OfScientific α] [Placed α] {o : Options} {as : List (Analysis α)}

/-- A report fails for a note that cannot be made, or for a reading time that is asked for. -/
theorem report_error [BEq α] {env : Environment α} {s : Settings Bool} {e : ReportError}
    (h : report env disk o s as = .error e) :
    (∃ a ∈ as, ∃ d, a.notes = .error d) ∨ o.structured = false ∧ o.readingTime = true ∧
      s.estimatedReadingTime = true ∧
      ∃ a ∈ as, ∃ d, ReadingTime.estimate a.text.toList 0 ReadingTime.usualSpeed = .error d := by
  unfold report at h
  split_ifs at h with hstructured
  · rcases bind_eq_error_iff.mp h with hentries | ⟨_, -, hpure⟩
    · obtain ⟨d, hd, -⟩ := mapError_eq_error_iff.mp hentries
      exact .inl (exists_of_structuredReport_error hd)
    · cases hpure
  · rcases bind_eq_error_iff.mp (map_eq_error_iff.mp h) with hlines | ⟨_, -, hpure⟩
    · rcases exists_of_fileLines_error hlines with hnotes | ⟨a, ha, d, hd⟩
      · exact .inl hnotes
      · obtain ⟨htime, t, ht, -⟩ := FileReport.readingTime_of_trailer_error hd
        obtain ⟨hoption, hsetting⟩ := Bool.and_eq_true_iff.mp htime
        exact .inr ⟨Bool.eq_false_iff.mpr hstructured, hoption, hsetting, a, ha, t, ht⟩
    · cases hpure

/-- Whether the median of some comment is above a limit. -/
def SomeAbove (limit : Int) (as : List (Analysis α)) : Prop :=
  ∃ a ∈ as, ∃ g ∈ a.graded, Placed.above g.stats.textMedian limit = true

theorem exceeds_iff {limit : Int} : exceeds limit as = true ↔ SomeAbove limit as := by
  simp only [exceeds, SomeAbove, List.any_eq_true]

theorem exitCode_eq_one_iff : exitCode o as = 1 ↔ ∃ limit, o.failAbove = some limit ∧ SomeAbove limit as := by
  unfold exitCode
  cases o.failAbove with
  | none => exact iff_of_false nofun nofun
  | some limit => simp only [Option.some.injEq, exists_eq_left', ← exceeds_iff, ite_eq_left_iff, Nat.zero_ne_one,
      imp_false, not_not]

theorem exitCode_eq_zero_or_one : exitCode o as = 0 ∨ exitCode o as = 1 := by
  unfold exitCode
  cases o.failAbove with
  | none => exact .inl rfl
  | some limit => cases exceeds limit as <;> simp

theorem exists_floor_of_mem_notes {a : Analysis α} {notes : List LevelNote} (hnotes : a.notes = .ok notes)
    {n : LevelNote} (hn : n ∈ notes) : ∃ g ∈ a.graded, Placed.floor g.stats.textMedian = .ok n.grade := by
  rw [notesOf_eq_map hnotes] at hn
  obtain ⟨p, hp, rfl⟩ := List.mem_map.mp hn
  obtain ⟨hg, hnote⟩ := mem_noted hp
  exact ⟨p.1, hg, (LevelNote.line_grade_of? hnote).2⟩

variable [Placed.Lawful α] {limit : Int}

theorem SomeAbove.anti {limit' : Int} (hle : limit ≤ limit') (h : SomeAbove limit' as) : SomeAbove limit as := by
  obtain ⟨a, ha, g, hg, habove⟩ := h
  exact ⟨a, ha, g, hg, Placed.Lawful.above_of_le hle habove⟩

theorem someAbove_of_grade {a : Analysis α} {notes : List LevelNote} (ha : a ∈ as) (hnotes : a.notes = .ok notes)
    {n : LevelNote} (hn : n ∈ notes) (hgrade : limit < n.grade) : SomeAbove limit as := by
  obtain ⟨g, hg, hfloor⟩ := exists_floor_of_mem_notes hnotes hn
  exact ⟨a, ha, g, hg, Placed.Lawful.above_of_lt_floor hfloor hgrade⟩

/-- A median above a limit that is not negative is the grade of an annotation, up to its fraction. -/
theorem exists_grade_of_someAbove (hlimit : 0 ≤ limit) (hall : ∀ a ∈ as, ∃ notes, a.notes = .ok notes)
    (h : SomeAbove limit as) : ∃ a ∈ as, ∃ notes, a.notes = .ok notes ∧ ∃ n ∈ notes, limit ≤ n.grade := by
  obtain ⟨a, ha, g, hg, habove⟩ := h
  obtain ⟨notes, hnotes⟩ := hall a ha
  obtain ⟨n, hn, hnote⟩ := exists_note_of_above hnotes hg (Placed.Lawful.above_of_le hlimit habove)
  exact ⟨a, ha, notes, hnotes, n, hn, Placed.Lawful.le_floor_of_above (LevelNote.line_grade_of? hnote).2 habove⟩

/-- A code says whether a limit is given and exceeded. With the annotations it agrees as far as their grades tell. -/
structure Tells (limit? : Option Int) (as : List (Analysis α)) (code : Nat) : Prop where
  eq_one_iff : code = 1 ↔ ∃ limit, limit? = some limit ∧ SomeAbove limit as
  eq_zero_or_one : code = 0 ∨ code = 1
  of_grade : ∀ limit, limit? = some limit → ∀ a ∈ as, ∀ notes, a.notes = .ok notes →
    ∀ n ∈ notes, limit < n.grade → code = 1
  exists_grade : ∀ limit, limit? = some limit → 0 ≤ limit → (∀ a ∈ as, ∃ notes, a.notes = .ok notes) → code = 1 →
    ∃ a ∈ as, ∃ notes, a.notes = .ok notes ∧ ∃ n ∈ notes, limit ≤ n.grade

theorem tells_exitCode (o : Options) (as : List (Analysis α)) : Tells o.failAbove as (exitCode o as) where
  eq_one_iff := exitCode_eq_one_iff
  eq_zero_or_one := exitCode_eq_zero_or_one
  of_grade limit hlimit a ha notes hnotes n hn hgrade :=
    exitCode_eq_one_iff.mpr ⟨limit, hlimit, someAbove_of_grade ha hnotes hn hgrade⟩
  exists_grade limit hlimit hpos hall hone := by
    obtain ⟨limit', hlimit', habove⟩ := exitCode_eq_one_iff.mp hone
    obtain rfl := Option.some.inj (hlimit.symm.trans hlimit')
    exact exists_grade_of_someAbove hpos hall habove

theorem exitCode_anti {o o' : Options} {limit' : Int} (hlimit : o.failAbove = some limit)
    (hlimit' : o'.failAbove = some limit') (hle : limit ≤ limit') (h : exitCode o as = 0) : exitCode o' as = 0 := by
  refine exitCode_eq_zero_or_one.resolve_right fun hone => ?_
  obtain ⟨l, hl, habove⟩ := exitCode_eq_one_iff.mp hone
  obtain rfl := Option.some.inj (hlimit'.symm.trans hl)
  have hone' : exitCode o as = 1 := exitCode_eq_one_iff.mpr ⟨limit, hlimit, habove.anti hle⟩
  exact absurd (h.symm.trans hone') Nat.zero_ne_one

end Codes

section Runs

variable {α : Type} [Add α] [Sub α] [Mul α] [Div α] [OfScientific α] [NatCast α] [LE α] [DecidableLE α] [LT α]
  [DecidableLT α] [BEq α] [Measure α] [Placed α] {env : Environment α} {disk : Disk} {o o' : Options}
  {s s' : Settings Bool} {paths : List String}

omit [Placed α] in
/-- The analyses do not depend on what is printed, nor on the number of workers. -/
theorem analysesOf_congr (hlanguage : o'.language = o.language)
    (hs : s' = { s with showNotes := s'.showNotes, estimatedReadingTime := s'.estimatedReadingTime }) :
    analysesOf env disk o' s' paths = analysesOf env disk o s paths := by
  rw [hs, analysesOf, hlanguage]
  rfl

theorem code_of_run {arguments : List String} {out : Output} (harguments : Options.parse arguments = .ok (o, paths))
    (hlist : o.listLanguages = false) (hs : o.settings env.yaml disk = .ok s) (h : run env disk arguments = .ok out) :
    out.code = exitCode o (analysesOf env disk o s paths) := by
  rw [run_eq harguments hlist hs] at h
  obtain ⟨printed, -, rfl⟩ := map_eq_ok_iff.mp h
  rfl

/-- How a run ends. Settings that are not loaded end it with code 2, or break it off if the failure is not foreseen.
Else it ends with a code that tells whether the limit is exceeded, unless a median has no integer part or a reading time
that is asked for does not exist. Another run about the same files, with settings that find the same comments, ends with
the same code if it has the same limit, and never with code 1 instead of 0 if its limit is greater. -/
theorem run_code [Placed.Lawful α] (env : Environment α) (disk : Disk) {arguments : List String}
    (harguments : Options.parse arguments = .ok (o, paths)) (hlist : o.listLanguages = false) :
    (∀ e, o.settings env.yaml disk = .error e → run env disk arguments =
      if e.isForeseen then .ok ⟨2, "", failureMessages o⟩ else .error (.settings e)) ∧
    ∀ s, o.settings env.yaml disk = .ok s →
      let as := analysesOf env disk o s paths
      ((∃ out, run env disk arguments = .ok out) ∨ (∃ a ∈ as, ∃ d, a.notes = .error d) ∨
        o.structured = false ∧ o.readingTime = true ∧ s.estimatedReadingTime = true ∧
          ∃ a ∈ as, ∃ d, ReadingTime.estimate a.text.toList 0 ReadingTime.usualSpeed = .error d) ∧
      ∀ out, run env disk arguments = .ok out → Tells o.failAbove as out.code ∧
        ∀ arguments' o' s' out', Options.parse arguments' = .ok (o', paths) → o'.listLanguages = false →
          o'.settings env.yaml disk = .ok s' → o'.language = o.language →
          s' = { s with showNotes := s'.showNotes, estimatedReadingTime := s'.estimatedReadingTime } →
          run env disk arguments' = .ok out' →
          (o'.failAbove = o.failAbove → out'.code = out.code) ∧
          ∀ limit limit', o.failAbove = some limit → o'.failAbove = some limit' → limit ≤ limit' →
            out.code = 0 → out'.code = 0 := by
  refine ⟨fun e he => ?_, fun s hs => ⟨?_, fun out hout => ?_⟩⟩
  · rw [run, harguments]
    exact runWith_of_settings_error hlist he
  · rw [run_eq harguments hlist hs]
    cases hreport : report env disk o s (analysesOf env disk o s paths) with
    | ok printed => exact .inl ⟨_, rfl⟩
    | error e => exact .inr (report_error hreport)
  · have hcode := code_of_run harguments hlist hs hout
    refine ⟨hcode ▸ tells_exitCode o _, fun arguments' o' s' out' harguments' hlist' hs' hlanguage hsame hout' => ?_⟩
    have hcode' := code_of_run harguments' hlist' hs' hout'
    rw [analysesOf_congr hlanguage hsame] at hcode'
    refine ⟨fun hlimits => ?_, fun limit limit' hlimit hlimit' hle hzero => ?_⟩
    · rw [hcode', hcode, exitCode, exitCode, hlimits]
    · rw [hcode']
      exact exitCode_anti hlimit hlimit' hle (hcode ▸ hzero)

end Runs

theorem someAbove_block :
    SomeAbove 2 (analysesOf (constantEnvironment (.whole 3)) blockDisk {} (Settings.defaults id) ["a.js"]) := by
  let as := analysesOf (constantEnvironment (.whole 3)) blockDisk {} (Settings.defaults id) ["a.js"]
  have hcomments : (as.flatMap (·.graded)).length = 1 := by decide +kernel
  obtain ⟨g, hg⟩ := List.exists_mem_of_length_pos (hcomments ▸ Nat.one_pos)
  obtain ⟨a, ha, hga⟩ := List.mem_flatMap.mp hg
  exact ⟨a, ha, g, hga, Placed.above_rat_iff.mpr (textMedian_block ha hga).1⟩

/-- With a limit of two the code is one. -/
theorem run_code_block :
    let env := constantEnvironment (.whole 3)
    let arguments := ["--fail-above", "2", "a.js"]
    let o : Options := { failAbove := some 2 }
    Options.parse arguments = .ok (o, ["a.js"]) ∧ o.listLanguages = false ∧
      o.settings env.yaml blockDisk = .ok (Settings.defaults id) ∧ ∃ out, run env blockDisk arguments = .ok out ∧
        Tells (some 2) (analysesOf env blockDisk o (Settings.defaults id) ["a.js"]) out.code ∧ out.code = 1 := by
  intro env arguments o
  let as := analysesOf env blockDisk o (Settings.defaults id) ["a.js"]
  have harguments : Options.parse arguments = .ok (o, ["a.js"]) := by decide +kernel
  have hs : o.settings env.yaml blockDisk = .ok (Settings.defaults id) := rfl
  obtain ⟨hends, hcode⟩ := (run_code env blockDisk harguments rfl).2 _ hs
  obtain ⟨out, hout⟩ : ∃ out, run env blockDisk arguments = .ok out := by
    rcases hends with hout | ⟨a, -, d, hd⟩ | ⟨-, htime, -⟩
    · exact hout
    · cases (Analysis.notesOf_eq a.graded).symm.trans hd
    · cases htime
  obtain ⟨htells, -⟩ := hcode out hout
  have hsome : SomeAbove 2 as := someAbove_block
  exact ⟨harguments, rfl, hs, out, hout, htells, htells.eq_one_iff.mpr ⟨2, rfl, hsome⟩⟩

/-- It is not so that every run whose settings are not loaded without the user being told ends with a code. -/
theorem not_run_code_datedTags :
    ¬∀ (env : Environment Rat) disk arguments o paths e, Options.parse arguments = .ok (o, paths) →
      o.listLanguages = false → o.settings env.yaml disk = .error e → e.isForeseen = false →
      ∃ out, run env disk arguments = .ok out ∧ (out.code = 0 ∨ out.code = 1) := by
  intro hall
  have harguments : Options.parse ["none", "--config", "c.toml"] =
      .ok ({ settingsPath := some "c.toml" }, ["none"]) := by decide +kernel
  let env := constantEnvironment (.whole 3)
  have hload : Settings.load env.yaml id (Settings.defaults id) Settings.datedTags "c.toml" =
      .error (.settings (.notIterable "datetime.date")) := by decide +kernel
  have hs := settings_of_load_error (o := { settingsPath := some "c.toml" }) rfl (by decide) hload
  obtain ⟨out, hout, -⟩ := hall env _ _ _ _ _ harguments rfl hs rfl
  rw [run, harguments] at hout
  cases (runWith_of_settings_error rfl hs).symm.trans hout

end CommandLine

end CommentGrade
