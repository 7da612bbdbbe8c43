import CommentGrade.Analysis.Text
import CommentGrade.Proofs.Value.Results

/-!
# Notes of comments

The notes of an analysis are those that its comments have one by one. A note stands on the line of its comment and has the
integer part of its median as its grade.
-/
namespace CommentGrade

open Number Readability

section Notes

variable {α : Type} [OfScientific α] [Placed α]

/-- The graded comments that have a note, each with it. -/
def noted (graded : List (Graded α)) : List (Graded α × LevelNote) :=
  graded.filterMap fun g => match LevelNote.of? g.comment.line g.stats with
    | .ok (some n) => some (g, n)
    | .ok none | .error _ => none

theorem noted_cons_some {g : Graded α} {n : LevelNote} (h : LevelNote.of? g.comment.line g.stats = .ok (some n))
    (graded : List (Graded α)) : noted (g :: graded) = (g, n) :: noted graded :=
  List.filterMap_cons_some (by rw [h])

theorem noted_cons_none {g : Graded α} (h : LevelNote.of? g.comment.line g.stats = .ok none)
    (graded : List (Graded α)) : noted (g :: graded) = noted graded :=
  List.filterMap_cons_none (by rw [h])

theorem mem_noted {graded : List (Graded α)} {p : Graded α × LevelNote} (h : p ∈ noted graded) :
    p.1 ∈ graded ∧ LevelNote.of? p.1.comment.line p.1.stats = .ok (some p.2) := by
  obtain ⟨g, hg, hnote⟩ := List.mem_filterMap.mp h
  split at hnote
  · next n hn =>
    cases hnote
    exact ⟨hg, hn⟩
  · cases hnote
  · cases hnote

theorem map_fst_noted (graded : List (Graded α)) : ((noted graded).map (·.1)).Sublist graded := by
  induction graded with
  | nil => exact .slnil
  | cons g graded ih =>
    rw [noted, List.filterMap_cons]
    split
    · exact ih.cons g
    · next p hp =>
      split at hp
      · cases hp
        exact ih.cons_cons g
      · cases hp
      · cases hp

/-- A note is on the line of its comment, and its grade is the integer part of the median. -/
theorem LevelNote.line_grade_of? {line : Int} {stats : Stats α} {n : LevelNote} (h : of? line stats = .ok (some n)) :
    n.line = line ∧ Placed.floor stats.textMedian = .ok n.grade := by
  unfold of? at h
  split at h
  · cases h
  · cases h
  all_goals
    obtain ⟨grade, hgrade, hn⟩ := map_eq_ok_iff.mp h
    cases hn
    exact ⟨rfl, hgrade⟩

theorem LevelNote.floor_of?_error {line : Int} {stats : Stats α} {e : NotFinite} (h : of? line stats = .error e) :
    Placed.floor stats.textMedian = .error e := by
  unfold of? at h
  split at h
  · cases h
  · cases h
  all_goals exact map_eq_error_iff.mp h

theorem notesOf_eq_map {graded : List (Graded α)} {notes : List LevelNote}
    (h : Analysis.notesOf graded = .ok notes) : notes = (noted graded).map (·.2) := by
  induction graded generalizing notes with
  | nil =>
    cases h
    rfl
  | cons g graded ih =>
    obtain ⟨note, hnote, hrest⟩ := bind_eq_ok_iff.mp h
    obtain ⟨rest, hnotes, hpure⟩ := bind_eq_ok_iff.mp hrest
    cases hpure
    cases note with
    | none => rw [noted_cons_none hnote, ih hnotes]; rfl
    | some n => rw [noted_cons_some hnote, ih hnotes]; rfl

theorem exists_of_notesOf_error {graded : List (Graded α)} {e : NotFinite} (h : Analysis.notesOf graded = .error e) :
    ∃ g ∈ graded, Placed.floor g.stats.textMedian = .error e := by
  induction graded with
  | nil => cases h
  | cons g graded ih =>
    rcases bind_eq_error_iff.mp h with hnote | ⟨note, -, hrest⟩
    · exact ⟨g, List.mem_cons_self, LevelNote.floor_of?_error hnote⟩
    · rcases bind_eq_error_iff.mp hrest with hnotes | ⟨_, -, hpure⟩
      · obtain ⟨g', hg', hfloor⟩ := ih hnotes
        exact ⟨g', List.mem_cons_of_mem g hg', hfloor⟩
      · cases hpure

/-- Each of some analyses has notes, or one of them has a comment whose median has no integer part. -/
theorem forall_notes_or_error (as : List (Analysis α)) :
    (∀ a ∈ as, a.notes = .ok ((noted a.graded).map (·.2))) ∨
      ∃ a ∈ as, ∃ e, a.notes = .error e ∧ ∃ g ∈ a.graded, Placed.floor g.stats.textMedian = .error e := by
  by_cases hsome : ∃ a ∈ as, ∃ e, a.notes = .error e ∧ ∃ g ∈ a.graded, Placed.floor g.stats.textMedian = .error e
  · exact .inr hsome
  · refine .inl fun a ha => ?_
    cases hnotes : a.notes with
    | ok notes => rw [notesOf_eq_map hnotes]
    | error e => exact absurd ⟨a, ha, e, hnotes, exists_of_notesOf_error hnotes⟩ hsome

/-- A comment whose median is above zero has a note, where its analysis has notes. -/
theorem exists_note_of_above {graded : List (Graded α)} {notes : List LevelNote}
    (h : Analysis.notesOf graded = .ok notes) {g : Graded α} (hg : g ∈ graded)
    (habove : Placed.above g.stats.textMedian 0 = true) :
    ∃ n ∈ notes, LevelNote.of? g.comment.line g.stats = .ok (some n) := by
  induction graded generalizing notes with
  | nil => cases hg
  | cons b graded ih =>
    obtain ⟨note, hnote, hrest⟩ := bind_eq_ok_iff.mp h
    obtain ⟨rest, hnotes, hpure⟩ := bind_eq_ok_iff.mp hrest
    cases hpure
    rcases List.mem_cons.mp hg with rfl | hg
    · have hgt : Placed.compareInt g.stats.textMedian 0 = some .gt := beq_iff_eq.mp habove
      have hfloor := hnote
      rw [LevelNote.of?, hgt] at hfloor
      obtain ⟨grade, -, rfl⟩ := map_eq_ok_iff.mp hfloor
      exact ⟨_, List.mem_append_left _ List.mem_cons_self, hnote⟩
    · obtain ⟨n, hn, hof⟩ := ih hnotes hg
      exact ⟨n, List.mem_append_right _ hn, hof⟩

end Notes

end CommentGrade
