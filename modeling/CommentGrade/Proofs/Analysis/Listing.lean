import CommentGrade.Proofs.Analysis.Completion
import CommentGrade.Proofs.Files.Walk
import CommentGrade.Proofs.Readability.Tables

/-!
# Listed files and their analyses

The files that paths are analysed for are those that the paths stand for, path by path. Two tests decide on the language
of a file: the walk looks at its path, the analysis at the text of this path. They agree, so that nothing is lost by
leaving out files early that have no analysis.
-/
namespace CommentGrade.Files

open FileTree Readability

section Serial

variable {ε α : Type} {run : String → Except ε (FileOutcome α)}

theorem serial_filter {keeps : Path → Bool} {fs : List Path}
    (h : ∀ f ∈ fs, keeps f = false → success? (run f.text) = none) :
    serial run ((fs.filter keeps).map Path.text) = serial run (fs.map Path.text) := by
  unfold serial
  rw [List.filterMap_map, List.filterMap_map, List.filterMap_filter]
  apply List.filterMap_congr
  intro f hf
  cases hkeeps : keeps f with
  | true => rfl
  | false => simp [h f hf hkeeps]

theorem serial_flatMap (paths : List String) (files : String → List Path) :
    serial run ((paths.flatMap files).map Path.text) =
      paths.flatMap fun path => serial run ((files path).map Path.text) := by
  unfold serial
  rw [List.map_flatMap, List.filterMap_flatMap]

end Serial

variable {α : Type} [Add α] [Sub α] [Mul α] [Div α] [OfScientific α] [NatCast α] [LE α] [DecidableLE α] [LT α]
  [DecidableLT α] [BEq α] [Number.Measure α] {disk : Disk}

theorem success?_of_undetectable (f : Formulas α) (settings : Settings Bool) {file : Path} (h : file.Plain)
    (hundetectable : isDetectable file = false) : success? (analyse f disk settings none file.text) = none := by
  have hlanguage : languageOf none file.text = none := by
    rw [languageOf, Option.filter_none, Option.none_or, ofPath?_text h]
    simpa [isDetectable] using hundetectable
  rw [analyse, hlanguage]
  rfl

theorem serial_filesAt (hdisk : disk.tree.Proper) (f : Formulas α) (settings : Settings Bool) (path : String) :
    serial (analyse f disk settings none) ((disk.filesAt true path).map Path.text) =
      serial (analyse f disk settings none) ((disk.filesAt false path).map Path.text) := by
  have hplain := Path.plain_ofString path
  unfold Disk.filesAt
  generalize Path.ofString path = p at hplain
  dsimp only
  split
  next => rfl
  next => rfl
  next es hfind =>
    have ht := ((Disk.find?_eq_some_iff hdisk).mp hfind).proper hdisk
    simp only [Bool.not_true, Bool.false_or, Bool.not_false, Bool.true_or, List.filter_true]
    apply serial_filter
    intro file hfile hundetectable
    obtain ⟨names, hnames, rfl⟩ := (mem_filesBelow_iff ht).mp hfile
    exact success?_of_undetectable f settings (plain_of_enters ht hnames hplain) hundetectable

/-- Paths stand for files one after the other, each for itself or for the files below it. If no language is given, the
files without one may be listed as well or not: the analyses are the same, whoever makes them and in whatever order. -/
theorem filesOf_lists (hdisk : disk.tree.Proper) (paths : List String) :
    (∀ detect, ∃ parts, disk.filesOf detect paths = parts.flatten ∧
      List.Forall₂ (fun path files => disk.Lists detect (Path.ofString path) files) paths parts) ∧
    ∀ (f : Formulas α) (settings : Settings Bool) (jobs : Int) (completed completed' : List String),
      completed.Perm (listed disk none paths) → completed'.Perm ((disk.filesOf false paths).map Path.text) →
      analysesCompleting (analyse f disk settings none) jobs (listed disk none paths) completed =
        analysesCompleting (analyse f disk settings none) jobs ((disk.filesOf false paths).map Path.text)
          completed' := by
  constructor
  · intro detect
    refine ⟨paths.map (disk.filesAt detect), List.flatMap_def, ?_⟩
    rw [List.forall₂_map_right_iff, List.forall₂_same]
    intro path _
    exact Disk.lists_filesAt hdisk detect path
  · intro f settings jobs completed completed' hcompleted hcompleted'
    rw [analysesCompleting_eq_serial fun file hfile => hcompleted.mem_iff.mpr hfile,
      analysesCompleting_eq_serial fun file hfile => hcompleted'.mem_iff.mpr hfile, listed, Disk.filesOf, Disk.filesOf,
      serial_flatMap, serial_flatMap]
    apply List.flatMap_congr
    intro path _
    exact serial_filesAt hdisk f settings path

/-- A tree with skipped names: of directories, one of them below another, and of a file. -/
def skippingTree : FileTree := .directory
  [("src", .directory
      [("z.py", .file []), ("build", .file []),
        ("deep", .directory [("dist", .directory [("x.py", .file [])]), ("a.py", .file [])])]),
    ("b.py", .file []), ("build", .directory [("c.py", .file [])])]

/-- The program runs at the top of that tree, and there is a file above it. -/
def skippingDisk : Disk where
  tree := .directory [("work", skippingTree), ("top.py", .file [])]
  place := ["work"]

theorem skippingDisk_proper : skippingDisk.tree.Proper := by
  simp [skippingDisk, skippingTree, proper_directory_iff, proper_file, IsName, Path.IsComponent]

theorem filesOf_skippingDisk (detect : Bool) :
    let kept := List.filter fun f => !detect || isDetectable f
    skippingDisk.filesOf detect [".", "build", "../work/src/build", "/top.py", "none"] =
      kept [⟨"", ["b.py"]⟩, ⟨"", ["src", "build"]⟩, ⟨"", ["src", "z.py"]⟩, ⟨"", ["src", "deep", "a.py"]⟩] ++
        (kept [⟨"", ["build", "c.py"]⟩] ++ [⟨"", ["..", "work", "src", "build"]⟩, ⟨"/", ["top.py"]⟩]) := by
  have hdot : Path.ofString "." = ⟨"", []⟩ := by decide
  have hdirectory : Path.ofString "build" = ⟨"", ["build"]⟩ := by decide
  have hfile : Path.ofString "../work/src/build" = ⟨"", ["..", "work", "src", "build"]⟩ := by decide
  have htop : Path.ofString "/top.py" = ⟨"/", ["top.py"]⟩ := by decide
  have hnone : Path.ofString "none" = ⟨"", ["none"]⟩ := by decide
  simp [Disk.filesOf, Disk.filesAt, Disk.find?, Path.absolute, descend, skippingDisk, skippingTree, hdot, hdirectory,
    hfile, htop, hnone, List.lookup_cons, filesBelow_directory, fileNames, byName, isEntered, skippedNames, Path.child,
    List.mergeSort]

/-- A skipped name is also an argument here, as are a file of no known language, one above the place of the program, and
a path that leads nowhere. -/
theorem filesOf_lists_skipped :
    let paths := [".", "build", "../work/src/build", "/top.py", "none"]
    let run := analyse (mixedFormulas Rat) skippingDisk (Settings.defaults id) none
    let files := ["b.py", "src/z.py", "src/deep/a.py", "build/c.py", "../work/src/build", "/top.py"]
    let all := ["b.py", "src/build", "src/z.py", "src/deep/a.py", "build/c.py", "../work/src/build", "/top.py"]
    skippingDisk.tree.Proper ∧ files.reverse.Perm files ∧ listed skippingDisk none paths = files ∧
      (skippingDisk.filesOf false paths).map Path.text = all ∧
      (∃ parts, skippingDisk.filesOf true paths = parts.flatten ∧
        List.Forall₂ (fun path files => skippingDisk.Lists true (Path.ofString path) files) paths parts) ∧
      analysesCompleting run 4 files files.reverse = analysesCompleting run 4 all all := by
  intro paths run files all
  have hperm : files.reverse.Perm files := List.reverse_perm files
  have hfiles : listed skippingDisk none paths = files := by
    rw [listed, filesOf_skippingDisk]
    decide +kernel
  have hall : (skippingDisk.filesOf false paths).map Path.text = all := by
    rw [filesOf_skippingDisk]
    decide +kernel
  have hlists := (filesOf_lists (α := Rat) skippingDisk_proper paths).1 true
  have hsame := (filesOf_lists skippingDisk_proper paths).2 (mixedFormulas Rat) (Settings.defaults id) 4 files.reverse
    all
  rw [hfiles, hall] at hsame
  exact ⟨skippingDisk_proper, hperm, hfiles, hall, hlists, hsame hperm (List.Perm.refl all)⟩

end CommentGrade.Files
