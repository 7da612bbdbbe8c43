import CommentGrade.CommandLine.Run
import CommentGrade.Proofs.Analysis.Completion
import CommentGrade.Proofs.Analysis.Flags
import CommentGrade.Proofs.Comment.Runs
import CommentGrade.Proofs.Value.Results

/-!
# Runs that analyse

A run whose settings are loaded analyses the files that its paths stand for, one after the other or at the same time,
and prints one of two reports about them. The analyses do not depend on what is printed.
-/
namespace CommentGrade.CommandLine

variable {α : Type} [Add α] [Sub α] [Mul α] [Div α] [OfScientific α] [NatCast α] [LE α] [DecidableLE α] [LT α]
  [DecidableLT α] [BEq α] [Number.Measure α] [Number.Placed α]

/-- The analyses of a run: those that the files have one after the other. -/
def analysesOf (env : Environment α) (disk : Disk) (o : Options) (s : Settings Bool) (paths : List String) :
    List (Analysis α) :=
  Files.serial (Files.analyse env.formulas disk s o.language) (Files.listed disk o.language paths)

/-- The log of a run when its files are to be analysed. -/
def logBefore (env : Environment α) (o : Options) (s : Settings Bool) : Log :=
  match o.language.bind (warning? env s) with
  | some r => (Log.configure o.verbose none {}).write r
  | none => Log.configure o.verbose none {}

/-- The messages of a run that has analysed its files. -/
def messagesOf (env : Environment α) (disk : Disk) (o : Options) (s : Settings Bool) (paths : List String) :
    List String :=
  (analysed env o s disk paths (logBefore env o s)).2.console

variable {env : Environment α} {disk : Disk} {o : Options} {s : Settings Bool} {paths : List String}

omit [Number.Placed α] in
theorem analysed_fst (log : Log) : (analysed env o s disk paths log).1 = analysesOf env disk o s paths := by
  dsimp only [analysed]
  rw [Files.outcomeAt_outcomes, Files.analyses, Files.analysesCompleting]
  split
  · exact Files.parallel_eq_serial fun f hf => hf
  · rfl

omit [Number.Placed α] in
theorem exists_ofText_of_mem {a : Analysis α} (h : a ∈ analysesOf env disk o s paths) :
    ∃ id file text, Analysis.ofText env.formulas s id file text = .ok a := by
  obtain ⟨path, -, hpath⟩ := List.mem_filterMap.mp h
  unfold Files.success? at hpath
  split at hpath
  · next outcome houtcome =>
    unfold Files.analyse at houtcome
    split at houtcome
    · cases houtcome
      cases hpath
    · split at houtcome
      · cases houtcome
        cases hpath
      · obtain ⟨b, hb, rfl⟩ := map_eq_ok_iff.mp houtcome
        cases hpath
        exact ⟨_, _, _, hb⟩
  · cases hpath

omit [Number.Placed α] in
theorem wellPlaced_of_mem {a : Analysis α} (h : a ∈ analysesOf env disk o s paths) :
    ∀ g ∈ a.graded, Comment.WellPlaced a.text.toList g.comment := by
  intro g hg
  obtain ⟨id, file, text, ha⟩ := exists_ofText_of_mem h
  have hfound : g.comment ∈ Analysis.commentsOf s id text.toList :=
    Analysis.comments_of_ofText ha ▸ List.mem_map_of_mem hg
  rw [Analysis.text_of_ofText ha]
  exact Comment.wellPlaced_of_mem_extract hfound

/-- A run with settings prints its report and ends with its code, unless the report fails. -/
theorem runWith_eq (hlist : o.listLanguages = false) (hs : o.settings env.yaml disk = .ok s) :
    runWith env disk o paths = ((report env disk o s (analysesOf env disk o s paths)).mapError .report).map fun printed =>
      ⟨exitCode o (analysesOf env disk o s paths), printed, messagesOf env disk o s paths⟩ := by
  rw [messagesOf, ← analysed_fst (logBefore env o s)]
  simp only [runWith, hlist, hs]
  change (report env disk o s (analysed env o s disk paths (logBefore env o s)).1).mapError Crash.report >>= (fun printed =>
    .ok (⟨exitCode o (analysed env o s disk paths (logBefore env o s)).1, printed,
      (analysed env o s disk paths (logBefore env o s)).2.console⟩ : Output)) = _
  cases report env disk o s (analysed env o s disk paths (logBefore env o s)).1 <;> rfl

theorem run_eq {arguments : List String} (harguments : Options.parse arguments = .ok (o, paths))
    (hlist : o.listLanguages = false) (hs : o.settings env.yaml disk = .ok s) :
    run env disk arguments =
      ((report env disk o s (analysesOf env disk o s paths)).mapError .report).map fun printed =>
        ⟨exitCode o (analysesOf env disk o s paths), printed, messagesOf env disk o s paths⟩ := by
  rw [run, harguments]
  exact runWith_eq hlist hs

end CommentGrade.CommandLine
