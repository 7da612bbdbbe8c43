import CommentGrade.Proofs.Json.Contents
import CommentGrade.Proofs.Settings.Layers
import Mathlib.Logic.Basic

/-!
# Layers over layers

What a layer does to settings depends on the values of six keys, and each of them sets a field of its own. So one layer
over another does what the two do as one mapping, in which the values of the upper one stand.
-/
namespace CommentGrade

namespace Value

/-- A mapping with the values of two others, those of the upper one where both have a key. -/
structure Overlays (lower upper both : Value) : Prop where
  isMap : ∃ es, both = .map es
  get?_eq : ∀ key, both.get? key = (upper.get? key).or (lower.get? key)

/-- The entries of a mapping put over those of another one. -/
def overlay (lower : List (Value × Value)) : List (Value × Value) → List (Value × Value)
  | [] => lower
  | (.str key, v) :: upper => put key v (overlay lower upper)
  | e :: upper => e :: overlay lower upper

theorem lookup_put (key name : String) (v : Value) (es : List (Value × Value)) :
    lookup key (put name v es) = if name = key then some v else lookup key es := by
  induction es with
  | nil => rfl
  | cons e es ih =>
    obtain ⟨k, w⟩ := e
    cases k with
    | str s =>
      by_cases hs : s = name
      · subst hs
        by_cases hkey : s = key <;> simp [put, lookup, hkey]
      · by_cases hkey : s = key
        · subst hkey
          simp [put, lookup, hs, Ne.symm hs]
        · simp [put, lookup, hs, hkey, ih]
    | null | bool _ | int _ | float _ | moment _ | bytes _ | list _ | tuple _ | set _ | map _ =>
      simpa [put, lookup] using ih

theorem lookup_overlay (key : String) (lower upper : List (Value × Value)) :
    lookup key (overlay lower upper) = (lookup key upper).or (lookup key lower) := by
  induction upper with
  | nil => rfl
  | cons e upper ih =>
    obtain ⟨k, w⟩ := e
    cases k with
    | str s => by_cases hs : s = key <;> simp [overlay, lookup, lookup_put, hs, ih]
    | null | bool _ | int _ | float _ | moment _ | bytes _ | list _ | tuple _ | set _ | map _ =>
      simpa [overlay, lookup] using ih

theorem overlays_overlay (lower upper : List (Value × Value)) :
    Overlays (.map lower) (.map upper) (.map (overlay lower upper)) where
  isMap := ⟨_, rfl⟩
  get?_eq key := lookup_overlay key lower upper

theorem Overlays.get?_cases {lower upper both v : Value} (h : Overlays lower upper both) {key : String}
    (hget : both.get? key = some v) : upper.get? key = some v ∨ lower.get? key = some v := by
  rw [h.get?_eq, Option.or_eq_some_iff] at hget
  exact hget.imp_right And.right

end Value

namespace Settings

open Value

section Readings

variable {data lower upper both : Value} {key : String}

/-- The truth value under a key of a mapping. -/
def flagIn? (data : Value) (key : String) : Option Bool :=
  match data.get? key with
  | some (.bool b) => some b
  | _ => none

/-- The tags that a mapping sets. -/
def tagsIn? (data : Value) : Option (List String) := (data.get? "tags").bind fun v => (tagsOf v).toOption

theorem exists_flagOf_iff :
    (∃ m, flagOf data key = .ok m) ↔ ∀ v, data.get? key = some v → ∃ b, v = .bool b := by
  unfold flagOf
  cases data.get? key with
  | none => simp
  | some v => cases v <;> simp

theorem flagOf_eq {m : Option Bool} (h : flagOf data key = .ok m) : m = flagIn? data key := by
  unfold flagOf at h
  unfold flagIn?
  cases hget : data.get? key with
  | none => simpa [hget] using h.symm
  | some v => cases v <;> simp_all

theorem exists_tagsIn_iff :
    (∃ ts, tagsIn data = .ok ts) ↔ ∀ v, data.get? "tags" = some v → ∃ ts, tagsOf v = .ok ts := by
  unfold tagsIn
  cases data.get? "tags" with
  | none => simp
  | some v =>
    simp only [map_eq_ok_iff, Option.some.injEq, forall_eq']
    constructor
    · rintro ⟨_, ts, hts, -⟩
      exact ⟨ts, hts⟩
    · rintro ⟨ts, hts⟩
      exact ⟨_, ts, hts, rfl⟩

theorem tagsIn_eq {ts : Option (List String)} (h : tagsIn data = .ok ts) : ts = tagsIn? data := by
  unfold tagsIn at h
  unfold tagsIn?
  cases hget : data.get? "tags" with
  | none => simpa [hget] using h.symm
  | some v =>
    rw [hget] at h
    obtain ⟨us, hus, rfl⟩ := map_eq_ok_iff.mp h
    simp [hus, Except.toOption]

theorem flagIn?_overlays (h : Overlays lower upper both) (hupper : ∃ m, flagOf upper key = .ok m) :
    flagIn? both key = (flagIn? upper key).or (flagIn? lower key) := by
  rw [exists_flagOf_iff] at hupper
  unfold flagIn?
  rw [h.get?_eq]
  cases hget : upper.get? key with
  | none => simp
  | some v =>
    obtain ⟨b, rfl⟩ := hupper v hget
    simp

theorem tagsIn?_overlays (h : Overlays lower upper both) (hupper : ∃ ts, tagsIn upper = .ok ts) :
    tagsIn? both = (tagsIn? upper).or (tagsIn? lower) := by
  rw [exists_tagsIn_iff] at hupper
  unfold tagsIn?
  rw [h.get?_eq]
  cases hget : upper.get? "tags" with
  | none => simp
  | some v =>
    obtain ⟨ts, hts⟩ := hupper v hget
    simp [hts, Except.toOption]

end Readings

/-- A mapping whose flags are truth values, and whose tags can be made. -/
structure Fits (data : Value) : Prop where
  isMap : ∃ es, data = .map es
  flags : FlagsFit data
  tags : ∃ ts, tagsIn data = .ok ts

/-- Settings with the values that a mapping has for them. -/
def layered {F : Type} (flag : Bool → F) (s : Settings F) (data : Value) : Settings F where
  multilineComments := ((flagIn? data "multilineComments").map flag).getD s.multilineComments
  highlightPlainText := ((flagIn? data "highlightPlainText").map flag).getD s.highlightPlainText
  useDocStyle := ((flagIn? data "useJSDocStyle").map flag).getD s.useDocStyle
  tags := (tagsIn? data).getD s.tags
  showNotes := ((flagIn? data "showAnnotations").map flag).getD s.showNotes
  estimatedReadingTime := ((flagIn? data "estimatedReadingTime").map flag).getD s.estimatedReadingTime

section Layers

variable {F : Type} {flag : Bool → F} {s t : Settings F} {data lower upper both : Value}

/-- A layer is accepted if it fits, whatever it is put over. -/
theorem withLayer_eq_layered_iff : s.withLayer flag data = .ok t ↔ Fits data ∧ t = layered flag s data := by
  cases data with
  | map es =>
    rw [withLayer_eq_ok_iff]
    constructor
    · rintro ⟨m, p, d, n, r, ts, hm, hp, hd, hn, hr, hts, rfl⟩
      refine ⟨⟨⟨es, rfl⟩, ?_, ts, hts⟩, ?_⟩
      · simp [FlagsFit, flagKeys, hm, hp, hd, hn, hr]
      · rw [layered, ← flagOf_eq hm, ← flagOf_eq hp, ← flagOf_eq hd, ← flagOf_eq hn, ← flagOf_eq hr, ← tagsIn_eq hts]
    · rintro ⟨⟨-, hflags, ts, hts⟩, rfl⟩
      simp only [FlagsFit, flagKeys, List.forall_mem_cons] at hflags
      obtain ⟨⟨m, hm⟩, ⟨p, hp⟩, ⟨d, hd⟩, ⟨n, hn⟩, ⟨r, hr⟩, -⟩ := hflags
      refine ⟨m, p, d, n, r, ts, hm, hp, hd, hn, hr, hts, ?_⟩
      rw [layered, ← flagOf_eq hm, ← flagOf_eq hp, ← flagOf_eq hd, ← flagOf_eq hn, ← flagOf_eq hr, ← tagsIn_eq hts]
  | null | bool _ | int _ | float _ | str _ | moment _ | bytes _ | list _ | tuple _ | set _ =>
    apply iff_of_false
    · intro h
      cases h
    · rintro ⟨⟨⟨es, hes⟩, -, -⟩, -⟩
      cases hes

theorem exists_withLayer_iff : (∃ t, s.withLayer flag data = .ok t) ↔ Fits data := by
  simp [withLayer_eq_layered_iff]

theorem Fits.overlays (hlower : Fits lower) (hupper : Fits upper) (h : Overlays lower upper both) : Fits both where
  isMap := h.isMap
  flags key hkey := by
    rw [exists_flagOf_iff]
    intro v hv
    rcases h.get?_cases hv with hget | hget
    · exact exists_flagOf_iff.mp (hupper.flags key hkey) v hget
    · exact exists_flagOf_iff.mp (hlower.flags key hkey) v hget
  tags := by
    rw [exists_tagsIn_iff]
    intro v hv
    rcases h.get?_cases hv with hget | hget
    · exact exists_tagsIn_iff.mp hupper.tags v hget
    · exact exists_tagsIn_iff.mp hlower.tags v hget

/-- What is set twice is what was set last. -/
theorem layered_overlays (hupper : Fits upper) (h : Overlays lower upper both) :
    layered flag (layered flag s lower) upper = layered flag s both := by
  have hflag : ∀ key ∈ flagKeys, ∀ x : F, ((flagIn? both key).map flag).getD x =
      ((flagIn? upper key).map flag).getD (((flagIn? lower key).map flag).getD x) := by
    intro key hkey x
    rw [flagIn?_overlays h (hupper.flags key hkey)]
    cases flagIn? upper key <;> rfl
  simp only [flagKeys, List.forall_mem_cons] at hflag
  obtain ⟨hmultiline, hplainText, hdocStyle, hnotes, hreadingTime, -⟩ := hflag
  have htags : (tagsIn? both).getD s.tags = (tagsIn? upper).getD ((tagsIn? lower).getD s.tags) := by
    rw [tagsIn?_overlays h hupper.tags]
    cases tagsIn? upper <;> rfl
  simp only [layered, hmultiline, hplainText, hdocStyle, hnotes, hreadingTime, htags]

theorem withLayer_congr {es fs : List (Value × Value)}
    (h : ∀ key ∈ "tags" :: flagKeys, (Value.map es).get? key = (Value.map fs).get? key) :
    s.withLayer flag (.map es) = s.withLayer flag (.map fs) := by
  simp only [flagKeys, List.forall_mem_cons] at h
  obtain ⟨htags, hmultiline, hplainText, hdocStyle, hnotes, hreadingTime, -⟩ := h
  simp only [withLayer, flagOf, tagsIn, htags, hmultiline, hplainText, hdocStyle, hnotes, hreadingTime]

/-- Tags that a mapping is refused for: a moment, or an integer with too many digits to be written. -/
def RefusedTags (v : Value) : Prop := (∃ m, v = .moment m) ∨ ∃ w ∈ tagSources v, w.isTooLong = true

theorem refusedTags_iff {v : Value} : RefusedTags v ↔ ¬∃ ts, tagsOf v = .ok ts := by
  rw [← exists_eq_error_iff, RefusedTags]
  simp only [tagsOf_eq_error_iff, List.any_eq_true]
  constructor
  · rintro (⟨m, rfl⟩ | h)
    · exact ⟨_, .inl ⟨m, rfl, rfl⟩⟩
    · exact ⟨_, .inr ⟨h, rfl⟩⟩
  · rintro ⟨e, ⟨m, rfl, -⟩ | ⟨h, -⟩⟩
    · exact .inl ⟨m, rfl⟩
    · exact .inr h

/-- A mapping is refused for a flag that is no truth value, or for its tags. -/
theorem exists_error_iff {es : List (Value × Value)} :
    (∃ e, s.withLayer flag (.map es) = .error e) ↔
      (∃ key ∈ flagKeys, ∃ v, (Value.map es).get? key = some v ∧ ∀ b, v ≠ .bool b) ∨
        ∃ v, (Value.map es).get? "tags" = some v ∧ RefusedTags v := by
  have hfits : Fits (.map es) ↔ FlagsFit (.map es) ∧ ∃ ts, tagsIn (.map es) = .ok ts :=
    ⟨fun h => ⟨h.flags, h.tags⟩, fun h => ⟨⟨es, rfl⟩, h.1, h.2⟩⟩
  rw [exists_eq_error_iff, exists_withLayer_iff, hfits, not_and_or, FlagsFit, exists_tagsIn_iff]
  simp only [exists_flagOf_iff, refusedTags_iff, not_forall, not_exists, exists_prop]

end Layers

end Settings

end CommentGrade
