import CommentGrade.Proofs.Json.RoundTrip
import CommentGrade.Report.Structured

/-!
# Entries of a structured report

What stands in a report is found by keys. A note, a comment and a box plot are written with fixed keys, so that each of
their parts can be read off their entries again.
-/
namespace CommentGrade

open Readability

namespace Value

/-- What stands in nested mappings under keys. -/
def at? (v : Value) : List String → Option Value
  | [] => some v
  | key :: keys => (v.get? key).bind (at? · keys)

theorem get?_object (entries : List (String × Value)) (key : String) :
    (object entries).get? key = entries.lookup key := by
  change lookup key (entries.map fun e => (str e.1, e.2)) = entries.lookup key
  induction entries with
  | nil => rfl
  | cons e entries ih =>
    obtain ⟨k, v⟩ := e
    rw [List.map_cons, lookup, ih, List.lookup_cons]
    by_cases h : k = key
    · simp [h]
    · have hne : (key == k) = false := by simpa using Ne.symm h
      simp [h, hne]

theorem at?_object {entries : List (String × Value)} {key : String} {v : Value} (h : entries.lookup key = some v)
    (keys : List String) : (object entries).at? (key :: keys) = v.at? keys := by
  rw [at?, get?_object, h, Option.bind_some]

theorem lookup_map {A : Type} {key : A → String} {f : A → Value} {l : List A} {a : A} (ha : a ∈ l)
    (hkey : ∀ b ∈ l, key b = key a → b = a) : (l.map fun b => (key b, f b)).lookup (key a) = some (f a) := by
  induction l with
  | nil => cases ha
  | cons b l ih =>
    rw [List.map_cons, List.lookup_cons]
    by_cases h : key b = key a
    · obtain rfl := hkey b List.mem_cons_self h
      simp
    · have hne : (key a == key b) = false := by simpa using Ne.symm h
      have hmem : a ∈ l := (List.mem_cons.mp ha).resolve_left fun hab => h (congrArg key hab.symm)
      rw [hne]
      exact ih hmem fun c hc => hkey c (List.mem_cons_of_mem b hc)

theorem lookup_map_values {A : Type} (f : A → Value) (l : List (String × A)) (key : String) :
    (l.map fun e => (e.1, f e.2)).lookup key = (l.lookup key).map f := by
  induction l with
  | nil => rfl
  | cons e l ih =>
    rw [List.map_cons, List.lookup_cons, List.lookup_cons, ih]
    cases key == e.1 <;> rfl

/-- Other floats do not change where a value stands. -/
theorem at?_mapFloats (g : Float → Float) (v : Value) (keys : List String) :
    (v.mapFloats g).at? keys = (v.at? keys).map (mapFloats g) := by
  induction keys generalizing v with
  | nil => rfl
  | cons key keys ih =>
    have hget : (v.mapFloats g).get? key = (v.get? key).map (mapFloats g) := by
      cases v with
      | map es =>
        change lookup key (mapFloatsEntries g es) = (lookup key es).map (mapFloats g)
        induction es with
        | nil => rfl
        | cons e es ih =>
          obtain ⟨k, w⟩ := e
          cases k with
          | str s =>
            rw [mapFloatsEntries, lookup, lookup, ih]
            split_ifs <;> rfl
          | null | bool _ | int _ | float _ | moment _ | bytes _ | list _ | tuple _ | set _ | map _ => exact ih
      | null | bool _ | int _ | float _ | str _ | moment _ | bytes _ | list _ | tuple _ | set _ => rfl
    rw [at?, at?, hget]
    cases v.get? key with
    | none => rfl
    | some w => exact ih w

end Value

/-- What a note says about a grade. -/
def Grade.title (grade : Int) : String := "Predicted reading level of " ++ label grade ++ " grade"

/-- The entry of a note on a line. -/
structure Value.IsNote (line grade : Int) (v : Value) : Prop where
  line_eq : v.at? ["line"] = some (.int line)
  grade_eq : v.at? ["grade"] = some (.int grade)
  title_eq : v.at? ["title"] = some (.str (Grade.title grade))

theorem LevelNote.isNote_toValue (n : LevelNote) : n.toValue.IsNote n.line n.grade := ⟨rfl, rfl, rfl⟩

theorem Value.IsNote.mapFloats {line grade : Int} {v : Value} (h : v.IsNote line grade) (g : Float → Float) :
    (v.mapFloats g).IsNote line grade where
  line_eq := by rw [at?_mapFloats, h.line_eq]; rfl
  grade_eq := by rw [at?_mapFloats, h.grade_eq]; rfl
  title_eq := by rw [at?_mapFloats, h.title_eq]; rfl

section Numbers

variable {α : Type} (number : α → Value)

/-- The entry of a comment: what it is, where it stands, what it says, and the metrics of all its tables. -/
structure Value.IsComment (g : Graded α) (v : Value) : Prop where
  kind_eq : v.at? ["kind"] = some (.str g.comment.kind.name)
  start_eq : v.at? ["start"] = some (.int g.comment.start)
  stop_eq : v.at? ["end"] = some (.int g.comment.stop)
  line_eq : v.at? ["line"] = some (.int g.comment.line)
  text_eq : v.at? ["text"] = some (.str g.comment.text)
  metric_eq : ∀ (t : MetricTable) (metric : String),
    v.at? ["stats", t.name, metric] = ((g.stats.table t).lookup metric).map number

/-- The entry of a box plot. -/
structure Value.IsFence (f : Fence α) (v : Value) : Prop where
  lowerExtreme_eq : v.at? ["lower_extreme"] = some (number f.lowerExtreme)
  lowerQuartile_eq : v.at? ["lower_quartile"] = some (number f.lowerQuartile)
  upperQuartile_eq : v.at? ["upper_quartile"] = some (number f.upperQuartile)
  upperExtreme_eq : v.at? ["upper_extreme"] = some (number f.upperExtreme)
  median_eq : v.at? ["median"] = some (number f.median)

theorem Fence.isFence_toValue (f : Fence α) : (f.toValue number).IsFence number f := ⟨rfl, rfl, rfl, rfl, rfl⟩

theorem Readability.MetricTable.name_injective : Function.Injective MetricTable.name := by
  intro t u
  cases t <;> cases u <;> decide

theorem CommentKind.name_injective : Function.Injective CommentKind.name := by
  intro k l
  cases k <;> cases l <;> decide

theorem Readability.MetricTable.mem_all (t : MetricTable) : t ∈ MetricTable.all := by
  cases t <;> decide

theorem Graded.isComment_toValue (g : Graded α) : (g.toValue number).IsComment number g where
  kind_eq := rfl
  start_eq := rfl
  stop_eq := rfl
  line_eq := rfl
  text_eq := rfl
  metric_eq t metric := by
    have htable := Value.lookup_map (f := fun t => (g.stats.table t).toValue number) t.mem_all
      fun _ _ h => MetricTable.name_injective h
    have hstats : (g.toValue number).at? ["stats", t.name, metric] =
        (g.stats.toValue number).at? [t.name, metric] := rfl
    rw [hstats, Stats.toValue, Value.at?_object htable, Table.toValue, Value.at?, Value.get?_object,
      Value.lookup_map_values]
    cases (g.stats.table t).lookup metric <;> rfl

end Numbers

end CommentGrade
