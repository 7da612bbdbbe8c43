import CommentGrade.Histogram
import CommentGrade.Proofs.CommandLine.ExitCode
import CommentGrade.Proofs.Files.Writing
import CommentGrade.Proofs.Report.Ordinals

/-!
# A histogram counts the notes

A histogram looks at the medians of the comments itself, and not at their notes. It comes to the same grades: where every
analysis has notes, each grade counts the notes of that grade, and all counts together are as many as there are notes. The
rows that are written have ascending grades, and no two of them the same label.
-/
namespace CommentGrade

open Number Readability

namespace Histogram

section Notes

variable {α : Type} [OfScientific α] [Placed α]

theorem gradesOf_cons_of_above {g : Graded α} (h : Placed.above g.stats.textMedian 0 = true) {grade : Int}
    (hgrade : Placed.floor g.stats.textMedian = .ok grade) (graded : List (Graded α)) :
    gradesOf (g :: graded) = (gradesOf graded).map (grade :: ·) := by
  rw [gradesOf, if_pos h, hgrade]
  cases gradesOf graded <;> rfl

theorem gradesOf_cons_of_not_above {g : Graded α} (h : Placed.above g.stats.textMedian 0 = false)
    (graded : List (Graded α)) : gradesOf (g :: graded) = gradesOf graded := by
  rw [gradesOf, if_neg (Bool.eq_false_iff.mp h)]

/-- A comment has a note exactly if its median is above zero: what does not compare has no integer part either. -/
theorem above_of_of? [Placed.Comparable α] {line : Int} {stats : Stats α} {note : Option LevelNote}
    (h : LevelNote.of? line stats = .ok note) : Placed.above stats.textMedian 0 = note.isSome := by
  unfold LevelNote.of? at h
  split at h
  next hlt =>
    cases h
    rw [Placed.above, hlt]
    rfl
  next heq =>
    cases h
    rw [Placed.above, heq]
    rfl
  next hgt =>
    obtain ⟨grade, -, rfl⟩ := map_eq_ok_iff.mp h
    rw [Placed.above, hgt]
    rfl
  next hnone =>
    obtain ⟨grade, hfloor, -⟩ := map_eq_ok_iff.mp h
    have hsome := Placed.Comparable.isSome_compareInt 0 hfloor
    rw [hnone] at hsome
    cases hsome

/-- The grades that are counted are those of the notes. -/
theorem gradesOf_eq [Placed.Comparable α] {graded : List (Graded α)} {notes : List LevelNote}
    (h : Analysis.notesOf graded = .ok notes) : gradesOf graded = .ok (notes.map (·.grade)) := by
  induction graded generalizing notes with
  | nil =>
    cases h
    rfl
  | cons g graded ih =>
    obtain ⟨note, hnote, hrest⟩ := bind_eq_ok_iff.mp h
    obtain ⟨rest, hnotes, hpure⟩ := bind_eq_ok_iff.mp hrest
    cases hpure
    have habove := above_of_of? hnote
    cases note with
    | none => rw [gradesOf_cons_of_not_above habove, ih hnotes]; rfl
    | some n =>
      obtain ⟨-, hgrade⟩ := LevelNote.line_grade_of? hnote
      rw [gradesOf_cons_of_above habove hgrade, ih hnotes]
      rfl

theorem notesOf_append {as bs : List (Graded α)} {ms ns : List LevelNote} (hms : Analysis.notesOf as = .ok ms)
    (hns : Analysis.notesOf bs = .ok ns) : Analysis.notesOf (as ++ bs) = .ok (ms ++ ns) := by
  induction as generalizing ms with
  | nil =>
    cases hms
    exact hns
  | cons g as ih =>
    obtain ⟨note, hnote, hrest⟩ := bind_eq_ok_iff.mp hms
    obtain ⟨rest, hnotes, hpure⟩ := bind_eq_ok_iff.mp hrest
    cases hpure
    rw [List.cons_append, Analysis.notesOf, hnote, ih hnotes, List.append_assoc]
    rfl

theorem notesOf_flatMap {as : List (Analysis α)} {notes : Analysis α → List LevelNote}
    (h : ∀ a ∈ as, a.notes = .ok (notes a)) :
    Analysis.notesOf (as.flatMap (·.graded)) = .ok (as.flatMap notes) := by
  induction as with
  | nil => rfl
  | cons a as ih =>
    rw [List.forall_mem_cons] at h
    exact notesOf_append h.1 (ih h.2)

theorem allGrades_eq [Placed.Comparable α] {as : List (Analysis α)} {notes : Analysis α → List LevelNote}
    (h : ∀ a ∈ as, a.notes = .ok (notes a)) : allGrades as = .ok ((as.flatMap notes).map (·.grade)) :=
  gradesOf_eq (notesOf_flatMap h)

/-- Some analysis has no notes, since the median of a comment in it has no integer part. -/
def SomeWithoutNotes (as : List (Analysis α)) : Prop :=
  ∃ a ∈ as, ∃ e, a.notes = .error e ∧ ∃ g ∈ a.graded, Placed.floor g.stats.textMedian = .error e

theorem exists_notes (as : List (Analysis α)) :
    SomeWithoutNotes as ∨ ∃ notes : Analysis α → List LevelNote, ∀ a ∈ as, a.notes = .ok (notes a) := by
  rcases forall_notes_or_error as with hall | hsome
  · exact .inr ⟨fun a => (noted a.graded).map (·.2), hall⟩
  · exact .inl hsome

end Notes

/-- How many notes have a grade. -/
def occurrences (notes : List LevelNote) (grade : Int) : Nat := notes.countP (·.grade == grade)

/-- Counts say of each grade how many notes have it. -/
structure Counts (counts : List (Int × Nat)) (notes : List LevelNote) : Prop where
  lookup_eq : ∀ grade, (counts.lookup grade).getD 0 = occurrences notes grade
  sum_eq : (counts.map (·.2)).sum = notes.length

/-- Rows say it of the grades that occur often enough, in ascending order and under different labels. -/
structure Lists (minCount : Int) (rs : List (Int × Nat)) (notes : List LevelNote) : Prop where
  ascending : rs.Pairwise (·.1 < ·.1)
  mem_iff : ∀ grade count, (grade, count) ∈ rs ↔ count = occurrences notes grade ∧ 0 < count ∧ minCount ≤ count
  labels : (rs.map fun r => Grade.label r.1).Nodup

section Tally

theorem count_grades (notes : List LevelNote) (grade : Int) :
    (notes.map (·.grade)).count grade = occurrences notes grade := by
  rw [List.count, List.countP_map]
  rfl

theorem sorted_perm (grades : List Int) :
    (grades.eraseDups.mergeSort fun a b => decide (a ≤ b)).Perm grades.eraseDups :=
  List.mergeSort_perm _ _

theorem mem_sorted_iff {grades : List Int} {grade : Int} :
    grade ∈ (grades.eraseDups.mergeSort fun a b => decide (a ≤ b)) ↔ 0 < grades.count grade := by
  rw [(sorted_perm grades).mem_iff, List.mem_eraseDups, List.count_pos_iff]

theorem lookup_tally (grades : List Int) (grade : Int) : ((tally grades).lookup grade).getD 0 = grades.count grade := by
  by_cases h : grade ∈ grades.eraseDups.mergeSort fun a b => decide (a ≤ b)
  · rw [tally, List.lookup_graph _ h, Option.getD_some]
  · have hnone : (tally grades).lookup grade = none := by
      rw [List.lookup_eq_none_iff]
      intro r hr
      obtain ⟨g, hg, rfl⟩ := List.mem_map.mp hr
      exact bne_iff_ne.mpr fun heq : grade = g => h (heq ▸ hg)
    rw [mem_sorted_iff, Nat.pos_iff_ne_zero, not_not] at h
    rw [hnone, h, Option.getD_none]

theorem sum_tally (grades : List Int) : ((tally grades).map (·.2)).sum = grades.length := by
  rw [tally, List.map_map, ← sum_count_eraseDups grades]
  exact ((sorted_perm grades).map grades.count).sum_eq

theorem pairwise_tally (grades : List Int) : (tally grades).Pairwise (·.1 < ·.1) := by
  have hle : (grades.eraseDups.mergeSort fun a b => decide (a ≤ b)).Pairwise (· ≤ ·) := List.pairwise_mergeSort' _ _
  have hne : (grades.eraseDups.mergeSort fun a b => decide (a ≤ b)).Nodup :=
    (sorted_perm grades).nodup_iff.mpr (nodup_eraseDups grades)
  rw [tally, List.pairwise_map]
  exact (hle.and hne).imp fun h => lt_of_le_of_ne h.1 h.2

theorem mem_tally_iff {grades : List Int} {grade : Int} {count : Nat} :
    (grade, count) ∈ tally grades ↔ count = grades.count grade ∧ 0 < count := by
  rw [tally, List.mem_map]
  constructor
  · rintro ⟨g, hg, hr⟩
    obtain ⟨rfl, rfl⟩ := Prod.mk.inj hr
    exact ⟨rfl, mem_sorted_iff.mp hg⟩
  · rintro ⟨rfl, hpos⟩
    exact ⟨grade, mem_sorted_iff.mpr hpos, rfl⟩

theorem counts_tally (notes : List LevelNote) : Counts (tally (notes.map (·.grade))) notes where
  lookup_eq grade := by rw [lookup_tally, count_grades]
  sum_eq := by rw [sum_tally, List.length_map]

theorem lists_rows (minCount : Int) (notes : List LevelNote) :
    Lists minCount (rows minCount (tally (notes.map (·.grade)))) notes where
  ascending := (pairwise_tally _).filter _
  mem_iff grade count := by
    rw [rows, List.mem_filter, mem_tally_iff, count_grades, decide_eq_true_eq, and_assoc]
  labels := by
    rw [List.Nodup, List.pairwise_map]
    exact ((pairwise_tally _).filter _).imp fun hlt hlabel => hlt.ne (Grade.label_injective hlabel)

end Tally

section Run

variable {α : Type} [Add α] [Sub α] [Mul α] [Div α] [OfScientific α] [NatCast α] [LE α] [DecidableLE α] [LT α]
  [DecidableLT α] [BEq α] [Measure α] [Placed α]

theorem gather_eq [Placed.Comparable α] {f : Formulas α} {s : Settings Bool} {disk : Disk} {paths : List String}
    {notes : Analysis α → List LevelNote} (h : ∀ a ∈ analyses f s disk paths, a.notes = .ok (notes a)) :
    gather f s disk paths = .ok (tally (((analyses f s disk paths).flatMap notes).map (·.grade))) := by
  rw [gather, allGrades_eq h]
  rfl

/-- Rows as a text: on each line the label of a grade, a tab and its count. -/
def textOf (rs : List (Int × Nat)) : String := "\n".intercalate (rs.map fun r => Grade.label r.1 ++ "\t" ++ toString r.2)

/-- What is left behind when rows have been written. -/
def outputOf (target : String) (rs : List (Int × Nat)) (after : Disk) : Output :=
  ⟨"Wrote " ++ toString rs.length ++ " grades to " ++ target ++ "\n", target, textOf rs, after⟩

theorem run_eq {f : Formulas α} {disk : Disk} {arguments : List String} {o : Options} {paths : List String}
    (harguments : Options.grammar.parse {} arguments = .ok (o, paths)) {counts : List (Int × Nat)}
    (hcounts : gather f o.settings disk paths = .ok counts) :
    run f disk arguments = ((disk.write o.target (textOf (rows o.minCount counts)).toUTF8.toList).mapError .write).map
      (outputOf o.target (rows o.minCount counts)) := by
  have hcontent : "\n".intercalate ((rows o.minCount counts).map rowText) = textOf (rows o.minCount counts) := rfl
  rw [run, harguments]
  simp only [Except.mapError, bind, Except.bind, hcounts, hcontent]
  cases disk.write o.target _ <;> rfl

/-- Where every analysis of the files has notes, the counts of their grades are those of the notes. The rows that list
them are written with a label, a tab and a count on each line, their number is printed, and the path of the file leads
to them afterwards, provided that a file can be written there. -/
theorem gather_counts [Placed.Comparable α] (f : Formulas α) :
    (∀ s disk paths, let as := Files.analyses (Files.analyse f disk s none) 1 (Files.listed disk none paths)
      SomeWithoutNotes as ∨
      ∃ (notes : Analysis α → List LevelNote) (counts : List (Int × Nat)), (∀ a ∈ as, a.notes = .ok (notes a)) ∧
        gather f s disk paths = .ok counts ∧ Counts counts (as.flatMap notes)) ∧
    ∀ disk arguments o paths, Options.grammar.parse {} arguments = .ok (o, paths) →
      let s : Settings Bool := { Settings.defaults id with multilineComments := o.multilineComments }
      let as := Files.analyses (Files.analyse f disk s none) 1 (Files.listed disk none paths)
      SomeWithoutNotes as ∨
      ∃ (notes : Analysis α → List LevelNote) (rs : List (Int × Nat)), (∀ a ∈ as, a.notes = .ok (notes a)) ∧
        Lists o.minCount rs (as.flatMap notes) ∧
        let bytes := (textOf rs).toUTF8.toList
        run f disk arguments = ((disk.write o.target bytes).mapError .write).map (outputOf o.target rs) ∧
        (disk.tree.Proper → (¬disk.Writable (.ofString o.target) ∧ ∃ e, run f disk arguments = .error (.write e)) ∨
          disk.Writable (.ofString o.target) ∧ ∃ after, run f disk arguments = .ok (outputOf o.target rs after) ∧
            after.Holds (.ofString o.target) (.file bytes)) := by
  constructor
  · intro s disk paths as
    refine (exists_notes as).imp id ?_
    rintro ⟨notes, hnotes⟩
    exact ⟨notes, _, hnotes, gather_eq hnotes, counts_tally (as.flatMap notes)⟩
  · intro disk arguments o paths harguments s as
    refine (exists_notes as).imp id ?_
    rintro ⟨notes, hnotes⟩
    have hrun := run_eq harguments (gather_eq hnotes)
    refine ⟨notes, _, hnotes, lists_rows o.minCount (as.flatMap notes), hrun, fun hproper => ?_⟩
    rw [hrun]
    rcases Disk.write_cases hproper o.target _ with ⟨hwritable, e, he⟩ | ⟨hwritable, after, hafter, hholds⟩
    · exact .inl ⟨hwritable, e, by rw [he]; rfl⟩
    · exact .inr ⟨hwritable, after, by rw [hafter]; rfl, hholds⟩

end Run

theorem proper_blockDisk : CommandLine.blockDisk.tree.Proper := by
  simp [CommandLine.blockDisk, FileTree.proper_directory_iff, FileTree.proper_file, FileTree.IsName, Path.IsComponent]

/-- The one comment of the file has a grade, which is written with its count. -/
theorem gather_counts_block :
    let f : Formulas Rat := Analysis.constantFormulas (.whole 3)
    let disk := CommandLine.blockDisk
    let arguments := ["a.js", "--min-count", "1", "--out=h.txt"]
    let o : Options := { target := "h.txt" }
    let s : Settings Bool := Settings.defaults id
    let as := Files.analyses (Files.analyse f disk s none) 1 (Files.listed disk none ["a.js"])
    Placed.Comparable Rat ∧ Options.grammar.parse {} arguments = .ok (o, ["a.js"]) ∧ disk.tree.Proper ∧
      (∃ (notes : Analysis Rat → List LevelNote) (counts : List (Int × Nat)), (∀ a ∈ as, a.notes = .ok (notes a)) ∧
        gather f s disk ["a.js"] = .ok counts ∧ Counts counts (as.flatMap notes)) ∧
      ∃ (notes : Analysis Rat → List LevelNote) (rs : List (Int × Nat)) (after : Disk),
        (∀ a ∈ as, a.notes = .ok (notes a)) ∧ Lists 1 rs (as.flatMap notes) ∧ rs ≠ [] ∧
        run f disk arguments = .ok (outputOf "h.txt" rs after) ∧
        after.Holds (.ofString "h.txt") (.file (textOf rs).toUTF8.toList) := by
  intro f disk arguments o s as
  have harguments : Options.grammar.parse {} arguments = .ok (o, ["a.js"]) := by decide +kernel
  have hnotes : ¬SomeWithoutNotes as := by
    rintro ⟨a, -, e, he, -⟩
    cases (Analysis.notesOf_eq a.graded).symm.trans he
  have hwritable : disk.Writable (.ofString "h.txt") :=
    (Disk.writeFault?_eq_none_iff proper_blockDisk).mp (by decide +kernel)
  obtain ⟨hgather, hrun⟩ := gather_counts f
  refine ⟨inferInstance, harguments, proper_blockDisk, (hgather s disk ["a.js"]).resolve_left hnotes, ?_⟩
  obtain ⟨notes, rs, hok, hlists, -, hwritten⟩ := (hrun disk arguments o ["a.js"] harguments).resolve_left hnotes
  obtain ⟨-, after, hafter, hholds⟩ := (hwritten proper_blockDisk).resolve_left fun h => h.1 hwritable
  refine ⟨notes, rs, after, hok, hlists, ?_, hafter, hholds⟩
  obtain ⟨a, ha, g, hg, habove⟩ : CommandLine.SomeAbove 2 as := CommandLine.someAbove_block
  obtain ⟨n, hn, -⟩ := exists_note_of_above (hok a ha) hg (Placed.Lawful.above_of_le (by decide) habove)
  have hpos : 0 < occurrences (as.flatMap notes) n.grade :=
    List.countP_pos_iff.mpr ⟨n, List.mem_flatMap.mpr ⟨a, ha, hn⟩, beq_self_eq_true _⟩
  have hmin : (1 : Int) ≤ occurrences (as.flatMap notes) n.grade := by exact_mod_cast hpos
  have hrow := (hlists.mem_iff n.grade _).mpr ⟨rfl, hpos, hmin⟩
  exact List.ne_nil_of_mem hrow

end Histogram

end CommentGrade
