import CommentGrade.Analysis.Files
import Mathlib.Data.List.Basic

/-!
# The order in which files are completed

Workers may complete the files in any order. What has been collected for a path depends only on whether the path has
been completed, so the analyses taken from it are those of the files done one after the other.
-/
namespace CommentGrade.Files

variable {ε α : Type} {run : String → Except ε (FileOutcome α)} {files completed : List String}

theorem lookup_filter_ne {f g : String} (h : g ≠ f) (done : List (String × Analysis α)) :
    (done.filter (·.1 != f)).lookup g = done.lookup g := by
  induction done with
  | nil => rfl
  | cons entry done ih =>
    obtain ⟨path, a⟩ := entry
    by_cases hpath : path = f
    · have hg : (g == path) = false := beq_false_of_ne (hpath ▸ h)
      simpa [List.lookup_cons, hpath, hpath ▸ hg] using ih
    · have hkept : (path != f) = true := bne_iff_ne.mpr hpath
      rw [List.filter_cons, if_pos hkept, List.lookup_cons, List.lookup_cons, ih]

/-- What has been collected when one more file is completed. -/
def completing (run : String → Except ε (FileOutcome α)) (f : String) (done : List (String × Analysis α)) :
    List (String × Analysis α) :=
  match success? (run f) with
  | some a => (f, a) :: done.filter (·.1 != f)
  | none => done

theorem collect_cons (f : String) (rest : List String) (done : List (String × Analysis α)) :
    collect run (f :: rest) done = collect run rest (completing run f done) := by
  rw [collect, completing]
  cases success? (run f) <;> rfl

theorem lookup_completing (f : String) (done : List (String × Analysis α)) (g : String) :
    (completing run f done).lookup g = (if g = f then success? (run f) else none).or (done.lookup g) := by
  rw [completing]
  cases success? (run f) with
  | none => simp
  | some a =>
    rw [List.lookup_cons]
    by_cases h : g = f
    · simp [h]
    · rw [beq_false_of_ne h, if_neg h, Option.none_or]
      exact lookup_filter_ne h done

/-- After all completions, in whatever order, a path has its own analysis if it has been completed. -/
theorem lookup_collect (completed : List String) (done : List (String × Analysis α)) (g : String) :
    (collect run completed done).lookup g =
      (if g ∈ completed then success? (run g) else none).or (done.lookup g) := by
  induction completed generalizing done with
  | nil => rfl
  | cons f rest ih =>
    rw [collect_cons, ih, lookup_completing]
    by_cases hf : g = f
    · subst hf
      by_cases hg : g ∈ rest <;> cases success? (run g) <;> simp [hg]
    · simp [hf]

/-- Files that are all completed, each as often as one likes, have the analyses that they have one after the other. -/
theorem parallel_eq_serial (h : ∀ f ∈ files, f ∈ completed) :
    parallel run files completed = serial run files := by
  unfold parallel serial
  apply List.filterMap_congr
  intro f hf
  rw [lookup_collect, if_pos (h f hf), List.lookup_nil, Option.or_none]

theorem analysesCompleting_eq_serial (h : ∀ f ∈ files, f ∈ completed) (jobs : Int) :
    analysesCompleting run jobs files completed = serial run files := by
  unfold analysesCompleting
  split
  · exact parallel_eq_serial h
  · rfl

/-- Whatever comes of each file, however many workers there are, and in whatever order they complete the files that
paths stand for: the analyses are those of a single worker, which are those of the files in their order, without the
files that have none or fail. -/
theorem analysesCompleting_eq_single (disk : Disk) (language : Option String) (paths : List String)
    (run : String → Except ε (FileOutcome α)) (jobs : Int) (completed : List String)
    (h : completed.Perm (listed disk language paths)) :
    let files := listed disk language paths
    analysesCompleting run jobs files completed = analyses run 1 files ∧
      analyses run 1 files = files.filterMap fun f =>
        match run f with
        | .ok (.analysed a) => some a
        | .ok .unknownLanguage | .ok .unreadable | .error _ => none := by
  intro files
  have hsingle : analyses run 1 files = serial run files := rfl
  constructor
  · rw [hsingle]
    exact analysesCompleting_eq_serial (fun f hf => h.mem_iff.mpr hf) jobs
  · rw [hsingle, serial]
    apply List.filterMap_congr
    intro f _
    rcases run f with e | (_ | _ | a) <;> rfl

/-- Four workers complete the files in the opposite order. A directory, one below it and a file overlap, and one file
fails. -/
theorem analysesCompleting_eq_single_reversed :
    let tree : FileTree := .directory [("a.py", .file []),
      ("lib", .directory [("b.py", .file []), ("old", .directory [("c.py", .file [])])])]
    let files := listed ⟨tree, []⟩ (some "python") [".", "lib", "a.py", "lib/old"]
    let run : String → Except Unit (FileOutcome Nat) := fun f =>
      if f = "lib/b.py" then .error ()
      else .ok (.analysed ⟨"python", { supported := true }, some f, "", [], .empty⟩)
    files.reverse.Perm files ∧ (analysesCompleting run 4 files files.reverse).map (·.file) =
      [some "a.py", some "lib/old/c.py", some "lib/old/c.py", some "a.py", some "lib/old/c.py"] := by
  intro tree files run
  have hperm : files.reverse.Perm files := List.reverse_perm files
  obtain ⟨hsingle, houtcomes⟩ :=
    analysesCompleting_eq_single ⟨tree, []⟩ (some "python") [".", "lib", "a.py", "lib/old"] run 4 _ hperm
  have hroot : Path.ofString "." = ⟨"", []⟩ := by decide
  have hlib : Path.ofString "lib" = ⟨"", ["lib"]⟩ := by decide
  have hfile : Path.ofString "a.py" = ⟨"", ["a.py"]⟩ := by decide
  have hold : Path.ofString "lib/old" = ⟨"", ["lib", "old"]⟩ := by decide
  have hpaths : (Disk.mk tree []).filesOf false [".", "lib", "a.py", "lib/old"] =
      [⟨"", ["a.py"]⟩, ⟨"", ["lib", "b.py"]⟩, ⟨"", ["lib", "old", "c.py"]⟩, ⟨"", ["lib", "b.py"]⟩,
        ⟨"", ["lib", "old", "c.py"]⟩, ⟨"", ["a.py"]⟩, ⟨"", ["lib", "old", "c.py"]⟩] := by
    simp [tree, Disk.filesOf, Disk.filesAt, Disk.find?, Path.absolute, FileTree.descend, hroot, hlib, hfile, hold,
      List.lookup_cons, FileTree.filesBelow, FileTree.subdirectories, FileTree.fileNames, FileTree.byName,
      FileTree.skippedNames, Path.child]
  have hfiles : listed ⟨tree, []⟩ (some "python") [".", "lib", "a.py", "lib/old"] =
      ["a.py", "lib/b.py", "lib/old/c.py", "lib/b.py", "lib/old/c.py", "a.py", "lib/old/c.py"] := by
    rw [listed, Option.isNone_some, hpaths]
    decide
  refine ⟨hperm, ?_⟩
  rw [hsingle, houtcomes, hfiles]
  rfl

end CommentGrade.Files
