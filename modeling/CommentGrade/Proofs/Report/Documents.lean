import CommentGrade.Proofs.Analysis.Flags
import CommentGrade.Proofs.Comment.Runs
import CommentGrade.Proofs.Report.Entries
import CommentGrade.Proofs.Report.Notes
import CommentGrade.Proofs.Summary.Contents

/-!
# Reports as documents

The entries of an analysis have different keys, as its tables have different names. So a structured report can be read back
from its document, unless a number in it is too long to be read.
-/
namespace CommentGrade

open Number Readability Value

namespace Readability

variable {α : Type} [Add α] [Div α] [OfScientific α] [LE α] [DecidableLE α] [LT α] [DecidableLT α] [BEq α] [Measure α]

theorem names_of_evaluateWith {f : Formulas α} {cs : List Char} {s : Stats α} (h : evaluateWith f cs = .ok s)
    (t : MetricTable) : (s.table t).map (·.1) = t.metrics := by
  unfold evaluateWith at h
  split_ifs at h
  · cases h
    cases t <;> exact names_constant _ _
  · obtain ⟨counts, -, hrest⟩ := bind_eq_ok_iff.mp h
    dsimp only at hrest
    split_ifs at hrest
    · cases hrest
      cases t
      · rfl
      · exact names_constant _ _
      · exact names_constant _ _
    · obtain ⟨scores, hscores, hstats⟩ := bind_eq_ok_iff.mp hrest
      cases hstats
      simp only [scoresOf, bind_eq_ok_iff] at hscores
      obtain ⟨_, -, _, -, _, -, _, -, _, -, _, -, _, -, _, -, _, -, _, -, _, -, hpure⟩ := hscores
      cases hpure
      cases t <;> rfl

theorem nodup_metrics (t : MetricTable) : t.metrics.Nodup := by
  cases t <;> decide

end Readability

section Summaries

variable {α : Type} [Add α] [Sub α] [Mul α] [Div α] [OfScientific α] [NatCast α] [LE α] [DecidableLE α]

/-- A summary has a column for each metric, and a share for each kind that occurs. -/
structure Summary.Named (s : Summary α) : Prop where
  kinds : (s.kinds.map (·.1)).Nodup
  columns : ∃ c : MetricTable → String → Column α, (∀ t metric, (c t metric).metric = metric) ∧
    s.columns = MetricTable.all.map fun t => (t, t.metrics.map (c t))

omit [Add α] [Sub α] [Mul α] [Div α] [OfScientific α] [NatCast α] [LE α] [DecidableLE α] in
theorem Summary.named_empty : (Summary.empty : Summary α).Named where
  kinds := List.nodup_nil
  columns := ⟨fun _ m => ⟨m, none, none⟩, fun _ _ => rfl, rfl⟩

/-- The summary of no comments is the empty one, any other has all columns. -/
theorem Summary.cases_of_make {stats : List (Stats α)} {kinds : List CommentKind} {s : Summary α}
    (h : make stats kinds = .ok s) : (stats = [] ∧ s = .empty) ∨
      ∃ (c : MetricTable → String → Column α) (median : α), (∀ t metric, (c t metric).metric = metric) ∧
        s = ⟨stats.length, kindShares kinds, MetricTable.all.map fun t => (t, t.metrics.map (c t)), some median⟩ := by
  by_cases hlength : stats.length = kinds.length
  · by_cases hne : stats = []
    · rw [make, if_neg (not_not.mpr hlength), if_pos (List.isEmpty_iff.mpr hne)] at h
      exact .inl ⟨hne, (Except.ok.inj h).symm⟩
    · obtain ⟨c, median, hc, -, hcomments⟩ := exists_ofComments hne kinds
      rw [make_of_ne_nil hne hlength, hcomments] at h
      refine .inr ⟨c, median, fun t metric => ?_, (Except.ok.inj h).symm⟩
      obtain ⟨fence, -, hcolumn⟩ := column_of_ne_nil hne t metric
      rw [← Except.ok.inj (hcolumn.symm.trans (hc t metric))]
  · rw [make, if_pos hlength] at h
    cases h

theorem Summary.named_make {stats : List (Stats α)} {kinds : List CommentKind} {s : Summary α}
    (h : make stats kinds = .ok s) : s.Named := by
  rcases cases_of_make h with ⟨-, rfl⟩ | ⟨c, median, hc, rfl⟩
  · exact named_empty
  · refine ⟨?_, c, hc, rfl⟩
    rw [kindShares, List.map_map]
    exact (List.map_id kinds.eraseDups).symm ▸ nodup_eraseDups kinds

theorem Summary.total_make {stats : List (Stats α)} {kinds : List CommentKind} {s : Summary α}
    (h : make stats kinds = .ok s) : s.total = stats.length := by
  rcases cases_of_make h with ⟨rfl, rfl⟩ | ⟨c, median, hc, rfl⟩ <;> rfl

end Summaries

section Entries

variable {α : Type} {number : α → Value}

theorem writable_orNull {β : Type} {f : β → Value} (h : ∀ b, (f b).Writable) (o : Option β) :
    (Value.orNull f o).Writable := by
  cases o with
  | none => exact .null
  | some b => exact h b

theorem writable_object_map {A : Type} {key : A → String} {f : A → Value} {l : List A} (hkeys : (l.map key).Nodup)
    (h : ∀ a ∈ l, (f a).Writable) : (Value.object (l.map fun a => (key a, f a))).Writable := by
  refine .object ?_ (List.forall_mem_map.mpr h)
  rw [List.map_map]
  exact hkeys

theorem Summary.writable_tablesValue {s : Summary α} (h : s.Named) {entry : Column α → Value}
    (hentry : ∀ c, (entry c).Writable) : (s.tablesValue entry).Writable := by
  obtain ⟨c, hmetric, hcolumns⟩ := h.columns
  have htables : (s.columns.map fun t => t.1.name).Nodup := by
    rw [hcolumns, List.map_map]
    exact (by decide : (MetricTable.all.map MetricTable.name).Nodup)
  refine writable_object_map htables fun column hcolumn => ?_
  rw [hcolumns] at hcolumn
  obtain ⟨t, -, rfl⟩ := List.mem_map.mp hcolumn
  have hmetrics : ((t.metrics.map (c t)).map Column.metric).Nodup := by
    have hnames : (t.metrics.map (c t)).map Column.metric = t.metrics := by
      rw [List.map_map]
      exact (List.map_congr_left fun metric _ => hmetric t metric).trans (List.map_id _)
    rw [hnames]
    exact nodup_metrics t
  exact writable_object_map hmetrics fun column _ => hentry column

variable (hnumber : ∀ x, (number x).Writable)

include hnumber

theorem Fence.writable_toValue (f : Fence α) : (f.toValue number).Writable :=
  .object (by simp) (by simp [hnumber])

theorem Readability.Stats.writable_toValue {s : Stats α} (h : ∀ t, ((s.table t).map (·.1)).Nodup) :
    (s.toValue number).Writable :=
  writable_object_map (by decide) fun t _ => writable_object_map (h t) fun e _ => hnumber e.2

theorem Graded.writable_toValue {g : Graded α} {n : Nat} (hn : n < 10 ^ maxDigits) (hstop : g.comment.stop ≤ n)
    (hstart : g.comment.start ≤ n) (hline : g.comment.line ≤ n) (hstats : ∀ t, ((g.stats.table t).map (·.1)).Nodup) :
    (g.toValue number).Writable := by
  have hint {k : Nat} (hk : k ≤ n) : (Value.int k).Writable := .int (Nat.lt_of_le_of_lt hk hn)
  refine .object (by simp [Comment.entries]) ?_
  simp only [Comment.entries, List.cons_append, List.nil_append, List.forall_mem_cons]
  exact ⟨.str _, hint hstart, hint hstop, hint hline, .str _, Stats.writable_toValue hnumber hstats, nofun⟩

theorem Summary.writable_toValue {s : Summary α} (h : s.Named) (htotal : s.total < 10 ^ maxDigits) :
    (s.toValue number).Writable := by
  have hkinds : (s.kinds.map fun k => k.1.name).Nodup := by
    have hnames := h.kinds.map CommentKind.name_injective
    rwa [List.map_map] at hnames
  refine .object (by simp) ?_
  simp only [List.forall_mem_cons]
  exact ⟨.int htotal, writable_object_map hkinds fun k _ => hnumber k.2,
    writable_tablesValue h fun c => writable_orNull (Fence.writable_toValue hnumber) c.fence,
    writable_tablesValue h fun c => writable_orNull hnumber c.mean, writable_orNull hnumber s.medianGrade, nofun⟩

end Entries

theorem LevelNote.writable_toValue {n : LevelNote} (hline : n.line.natAbs < 10 ^ maxDigits)
    (hgrade : n.grade.natAbs < 10 ^ maxDigits) : n.toValue.Writable := by
  refine .object (by simp) ?_
  simp only [List.forall_mem_cons]
  exact ⟨.int hline, .int hgrade, .str _, .str _, nofun⟩

namespace Analysis

variable {α : Type} [Add α] [Sub α] [Mul α] [Div α] [OfScientific α] [NatCast α] [LE α] [DecidableLE α] [LT α]
  [DecidableLT α] [BEq α] [Measure α] [Placed α] {f : Formulas α} {s : Settings Bool} {id : String} {file : Option String}
  {text : String} {a : Analysis α} {number : α → Value}

/-- No number that is written of an analysis is too long to be read. -/
structure Short (a : Analysis α) : Prop where
  text : a.text.toList.length < 10 ^ maxDigits
  total : a.graded.length < 10 ^ maxDigits
  grade : ∀ g ∈ a.graded, ∀ grade, Placed.floor g.stats.textMedian = .ok grade → grade.natAbs < 10 ^ maxDigits

/-- The entries of the analysis of a text can be written. -/
theorem writable_entries (hnumber : ∀ x, (number x).Writable) (ha : ofText f s id file text = .ok a)
    (hshort : a.Short) {entries : List (String × Value)} (h : a.entries number = .ok entries) :
    (Value.object entries).Writable := by
  obtain ⟨notes, hnotes, hentries⟩ := bind_eq_ok_iff.mp h
  cases hentries
  have htext := text_of_ofText ha
  have hsummary := summary_of_ofText ha
  have hplaced : ∀ g ∈ a.graded, Comment.WellPlaced a.text.toList g.comment := by
    rw [htext]
    exact fun g hg => Comment.wellPlaced_of_mem_extract (comments_of_ofText ha ▸ List.mem_map_of_mem hg)
  have hline {g : Graded α} (hg : g ∈ a.graded) : g.comment.line ≤ a.text.toList.length :=
    Nat.le_trans (hplaced g hg).line_le_last List.count_le_length
  have htotal : a.summary.total < 10 ^ maxDigits := by
    rw [Summary.total_make hsummary, List.length_map]
    exact hshort.total
  have hcomment : ∀ g ∈ a.graded, (g.toValue number).Writable := fun g hg =>
    have hstart := Nat.le_of_lt (Nat.lt_of_lt_of_le (hplaced g hg).start_lt_stop (hplaced g hg).stop_le_length)
    g.writable_toValue hnumber hshort.text (hplaced g hg).stop_le_length hstart (hline hg) fun t =>
      names_of_evaluateWith (evaluated_of_ofText ha g hg) t ▸ nodup_metrics t
  have hnote : ∀ n ∈ notes, n.toValue.Writable := by
    intro n hn
    rw [notesOf_eq_map hnotes] at hn
    obtain ⟨⟨g, n⟩, hp, rfl⟩ := List.mem_map.mp hn
    obtain ⟨hg, hof⟩ := mem_noted hp
    obtain ⟨hn, hgrade⟩ := LevelNote.line_grade_of? hof
    refine LevelNote.writable_toValue ?_ (hshort.grade g hg _ hgrade)
    rw [hn, Int.natAbs_natCast]
    exact Nat.lt_of_le_of_lt (hline hg) hshort.text
  refine .object (by simp) ?_
  simp only [List.forall_mem_cons]
  exact ⟨writable_orNull Writable.str a.file, .str _, .bool _, .list (List.forall_mem_map.mpr hcomment),
    .list (List.forall_mem_map.mpr hnote), Summary.writable_toValue hnumber (Summary.named_make hsummary) htotal, nofun⟩

end Analysis

end CommentGrade
