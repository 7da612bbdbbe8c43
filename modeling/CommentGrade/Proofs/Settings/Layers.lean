import CommentGrade.Proofs.Value.Results
import CommentGrade.Settings.Basic

/-!
# Layers of settings

A layer is accepted if it is a mapping in which each flag that is there is a truth value, and the tags are no moment
and can be written. Every other value stands for tags.
-/
namespace CommentGrade.Settings

theorem ifWritable_eq_ok_iff {vs : List Value} {ts us : List String} :
    ifWritable vs ts = .ok us ↔ vs.any Value.isTooLong = false ∧ ts = us := by
  unfold ifWritable
  cases vs.any Value.isTooLong <;> simp

theorem ifWritable_eq_error_iff {vs : List Value} {ts : List String} {e : SettingsError} :
    ifWritable vs ts = .error e ↔ vs.any Value.isTooLong = true ∧ .tooLong = e := by
  unfold ifWritable
  cases vs.any Value.isTooLong <;> simp

/-- The values that are written to have the tags that a value stands for, as far as they may be too long. -/
def tagSources : Value → List Value
  | .list vs | .tuple vs | .set vs => vs
  | .map es => es.map (·.1)
  | .int n => [.int n]
  | _ => []

/-- Every value stands for tags, unless it is a moment, or an integer or a container with one that is too long. -/
theorem tagsOf_eq_error_iff {v : Value} {e : SettingsError} :
    tagsOf v = .error e ↔ (∃ m, v = .moment m ∧ e = .notIterable (momentType m)) ∨
      ((tagSources v).any Value.isTooLong = true ∧ e = .tooLong) := by
  cases v with
  | moment m => simp [tagsOf, tagSources, eq_comm]
  | null | bool _ | float _ | str _ | bytes _ => simp [tagsOf, tagSources]
  | int _ | list _ | tuple _ | set _ | map _ =>
    simp only [tagsOf, ifWritable_eq_error_iff, tagSources, eq_comm (a := e)]
    exact ⟨.inr, fun h => h.resolve_left nofun⟩

theorem tagsIn_eq_error_iff {data : Value} {e : SettingsError} :
    tagsIn data = .error e ↔ ∃ v, data.get? "tags" = some v ∧ tagsOf v = .error e := by
  unfold tagsIn
  cases data.get? "tags" with
  | none => exact ⟨nofun, nofun⟩
  | some v => simp only [map_eq_error_iff, Option.some.injEq, exists_eq_left']

theorem flagOf_eq_error_iff {data : Value} {key : String} {e : SettingsError} :
    flagOf data key = .error e ↔
      ∃ v, data.get? key = some v ∧ (∀ b, v ≠ .bool b) ∧
        e = if v.isTooLong then .tooLong else .notBoolean key v.quoted := by
  unfold flagOf
  cases data.get? key with
  | none => exact ⟨nofun, nofun⟩
  | some v =>
    simp only [Option.some.injEq, exists_eq_left']
    cases v with
    | bool b => exact ⟨nofun, fun h => absurd rfl (h.1 b)⟩
    | null | int _ | float _ | str _ | moment _ | bytes _ | list _ | tuple _ | set _ | map _ =>
      exact ⟨fun h => ⟨nofun, (Except.error.inj h).symm⟩, fun h => congrArg Except.error h.2.symm⟩

/-- The keys of a layer that are flags. -/
def flagKeys : List String :=
  ["multilineComments", "highlightPlainText", "useJSDocStyle", "showAnnotations", "estimatedReadingTime"]

/-- Whether each flag in a layer is a truth value. -/
def FlagsFit (data : Value) : Prop := ∀ key ∈ flagKeys, ∃ flag, flagOf data key = .ok flag

section

variable {F : Type} {flag : Bool → F} {s t : Settings F} {es : List (Value × Value)}

theorem withLayer_eq_ok_iff : s.withLayer flag (.map es) = .ok t ↔
    ∃ multiline plainText docStyle notes readingTime tags,
      flagOf (.map es) "multilineComments" = .ok multiline ∧ flagOf (.map es) "highlightPlainText" = .ok plainText ∧
      flagOf (.map es) "useJSDocStyle" = .ok docStyle ∧ flagOf (.map es) "showAnnotations" = .ok notes ∧
      flagOf (.map es) "estimatedReadingTime" = .ok readingTime ∧ tagsIn (.map es) = .ok tags ∧
      t = {
        multilineComments := (multiline.map flag).getD s.multilineComments
        highlightPlainText := (plainText.map flag).getD s.highlightPlainText
        useDocStyle := (docStyle.map flag).getD s.useDocStyle
        tags := tags.getD s.tags
        showNotes := (notes.map flag).getD s.showNotes
        estimatedReadingTime := (readingTime.map flag).getD s.estimatedReadingTime } := by
  simp only [withLayer, bind_eq_ok_iff, pure, Except.pure, Except.ok.injEq]
  constructor
  · rintro ⟨m, hm, p, hp, d, hd, n, hn, r, hr, ts, hts, rfl⟩
    exact ⟨m, p, d, n, r, ts, hm, hp, hd, hn, hr, hts, rfl⟩
  · rintro ⟨m, p, d, n, r, ts, hm, hp, hd, hn, hr, hts, rfl⟩
    exact ⟨m, hm, p, hp, d, hd, n, hn, r, hr, ts, hts, rfl⟩

/-- A mapping is refused for a flag that is no truth value; if there is none, for tags that are a moment. -/
theorem withLayer_eq_error {e : SettingsError} (h : s.withLayer flag (.map es) = .error e) :
    (∃ key ∈ flagKeys, flagOf (.map es) key = .error e) ∨
      (FlagsFit (.map es) ∧ tagsIn (.map es) = .error e) := by
  simp only [withLayer, bind_eq_error_iff, pure, Except.pure, reduceCtorEq, and_false, exists_false, or_false] at h
  rcases h with h | ⟨_, hm, h | ⟨_, hp, h | ⟨_, hd, h | ⟨_, hn, h | ⟨_, hr, h⟩⟩⟩⟩⟩
  · exact .inl ⟨_, by decide, h⟩
  · exact .inl ⟨_, by decide, h⟩
  · exact .inl ⟨_, by decide, h⟩
  · exact .inl ⟨_, by decide, h⟩
  · exact .inl ⟨_, by decide, h⟩
  · refine .inr ⟨?_, h⟩
    simp only [FlagsFit, flagKeys, List.forall_mem_cons, List.not_mem_nil, false_implies, implies_true, and_true]
    exact ⟨⟨_, hm⟩, ⟨_, hp⟩, ⟨_, hd⟩, ⟨_, hn⟩, ⟨_, hr⟩⟩

theorem withLayer_of_flagsFit (hflags : FlagsFit (.map es)) {e : SettingsError} (htags : tagsIn (.map es) = .error e) :
    s.withLayer flag (.map es) = .error e := by
  simp only [FlagsFit, flagKeys, List.forall_mem_cons, List.not_mem_nil, false_implies, implies_true, and_true]
    at hflags
  obtain ⟨⟨m, hm⟩, ⟨p, hp⟩, ⟨d, hd⟩, ⟨n, hn⟩, ⟨r, hr⟩⟩ := hflags
  simp only [withLayer, hm, hp, hd, hn, hr, htags, bind, Except.bind]

end

end CommentGrade.Settings
