import CommentGrade.Proofs.Settings.Layers
import Mathlib.Data.Nat.Digits.Defs
import Mathlib.Tactic.SplitIfs

/-!
# Settings written out and read again

Settings that are written out as a layer come back when the layer is put over any other settings, for a list of tags
stands for itself as long as no tag is empty. A list or a mapping never leaves an empty tag behind; a lone empty text
does, and that tag is lost on the way.
-/
namespace CommentGrade

open Number

section Texts

theorem natText_ne_empty (n : Nat) : toString n ≠ "" := Nat.repr_ne_empty

theorem intText_ne_empty (n : Int) : toString n ≠ "" := by
  cases n with
  | ofNat n => exact Nat.repr_ne_empty
  | negSucc n =>
    intro h
    have h' : "-" ++ (n + 1).repr = "" := h
    simp at h'

theorem render_ne_empty (l : Layout) (d : Decimal) : l.render d ≠ "" := by
  simp only [Layout.render]
  split_ifs <;> simp [String.append_eq_empty_iff]

theorem floatText_ne_empty (x : Float) : floatText x ≠ "" := by
  unfold floatText
  cases Binary.ofFloat x with
  | notANumber => decide
  | infinite negative => cases negative <;> decide
  | finite negative m e =>
    have hrest : (if m == 0 then "0.0" else floatLayout.render (shortest m e)) ≠ "" := by
      split_ifs
      · decide
      · exact render_ne_empty _ _
    exact fun h => hrest (String.append_eq_empty_iff.mp h).2

theorem Value.boolText_ne_empty (b : Bool) : boolText b ≠ "" := by
  cases b <;> decide

end Texts

namespace Settings

theorem tagItems_map_str (ts : List String) : tagItems (ts.map .str) = ts.filter (· != "") := by
  simp [tagItems, List.filter_map, Function.comp_def, Value.text]

theorem any_isTooLong_map_str (ts : List String) : (ts.map Value.str).any Value.isTooLong = false := by
  simp [List.any_eq_false, Value.isTooLong]

theorem not_mem_tagItems (vs : List Value) : "" ∉ tagItems vs := by
  intro h
  exact absurd (List.mem_filter.mp h).2 (by decide)

/-- A lone empty text is the only value that stands for an empty tag. -/
theorem tagsOf_cases {v : Value} {ts : List String} (h : tagsOf v = .ok ts) :
    (v = .str "" ∧ ts = [""]) ∨ "" ∉ ts := by
  have hlone : ∀ {s : String}, s ≠ "" → "" ∉ [s] := fun hs hmem => hs (List.mem_singleton.mp hmem).symm
  cases v with
  | moment m => cases h
  | null =>
    cases h
    exact .inr List.not_mem_nil
  | list vs | tuple vs | set vs | map es =>
    obtain ⟨-, rfl⟩ := ifWritable_eq_ok_iff.mp h
    exact .inr (not_mem_tagItems _)
  | bytes bs =>
    cases h
    refine .inr fun hmem => ?_
    obtain ⟨b, -, hb⟩ := List.mem_map.mp hmem
    exact natText_ne_empty _ hb
  | bool b =>
    cases h
    exact .inr (hlone (Value.boolText_ne_empty b))
  | int n =>
    obtain ⟨-, rfl⟩ := ifWritable_eq_ok_iff.mp h
    exact .inr (hlone (intText_ne_empty n))
  | float x =>
    cases h
    exact .inr (hlone (floatText_ne_empty x))
  | str s =>
    cases h
    by_cases hs : s = ""
    · exact .inl ⟨congrArg Value.str hs, congrArg (List.cons · []) hs⟩
    · exact .inr (hlone hs)

/-- Tags among which none is empty, or the one that an empty text stands for. -/
def AreSettled (ts : List String) : Prop := ts = [""] ∨ "" ∉ ts

theorem areSettled_of_tagsOf {v : Value} {ts : List String} (h : tagsOf v = .ok ts) : AreSettled ts :=
  (tagsOf_cases h).imp_left And.right

/-- Settled tags that are written out lose only the one empty tag. -/
theorem AreSettled.filter_eq {ts : List String} (h : AreSettled ts) :
    ts.filter (· != "") = if ts = [""] then [] else ts := by
  rcases h with rfl | h
  · rfl
  · have hne : ts ≠ [""] := by
      rintro rfl
      exact h List.mem_cons_self
    rw [if_neg hne, List.filter_eq_self]
    intro t ht
    exact bne_iff_ne.mpr fun hempty => h (hempty ▸ ht)

section Steps

variable {F : Type} {flag : Bool → F} {s t : Settings F}

theorem tags_of_withLayer {data : Value} (h : s.withLayer flag data = .ok t) :
    t.tags = s.tags ∨ ∃ v, tagsOf v = .ok t.tags := by
  cases data with
  | map es =>
    obtain ⟨_, _, _, _, _, tags, -, -, -, -, -, htags, rfl⟩ := withLayer_eq_ok_iff.mp h
    unfold tagsIn at htags
    cases hget : (Value.map es).get? "tags" with
    | none =>
      rw [hget] at htags
      cases htags
      exact .inl rfl
    | some v =>
      rw [hget] at htags
      obtain ⟨ts, hts, rfl⟩ := map_eq_ok_iff.mp htags
      exact .inr ⟨v, hts⟩
  | null | bool _ | int _ | float _ | str _ | moment _ | bytes _ | list _ | tuple _ | set _ => cases h

theorem tags_of_merged {o : Overrides F} (h : s.merged o = .ok t) :
    t.tags = s.tags ∨ ∃ v, tagsOf v = .ok t.tags := by
  unfold Settings.merged at h
  cases htags : o.tags with
  | none =>
    rw [htags] at h
    cases h
    exact .inl rfl
  | some v =>
    rw [htags] at h
    obtain ⟨ts, hts, ht⟩ := bind_eq_ok_iff.mp h
    cases ht
    exact .inr ⟨v, hts⟩

end Steps

/-- Settings that come from the defaults by layers and overrides. A null in the place of tags is no override. -/
inductive Reachable : Settings Bool → Prop
  | defaults : Reachable (defaults id)
  | layer {s t : Settings Bool} {data : Value} : Reachable s → s.withLayer id data = .ok t → Reachable t
  | overridden {s t : Settings Bool} {o : Overrides Bool} :
      Reachable s → o.tags ≠ some .null → s.merged o = .ok t → Reachable t

theorem Reachable.areSettled {s : Settings Bool} (h : Reachable s) : AreSettled s.tags := by
  induction h with
  | defaults => exact .inr (by decide)
  | layer _ hlayer ih =>
    rcases tags_of_withLayer hlayer with hkept | ⟨v, hv⟩
    · exact hkept ▸ ih
    · exact areSettled_of_tagsOf hv
  | overridden _ _ hmerged ih =>
    rcases tags_of_merged hmerged with hkept | ⟨v, hv⟩
    · exact hkept ▸ ih
    · exact areSettled_of_tagsOf hv

/-- What was written out sets everything, and the tags that are not empty. -/
theorem withLayer_toLayer (base s : Settings Bool) :
    base.withLayer id (s.toLayer .bool) = .ok { s with tags := s.tags.filter (· != "") } := by
  have htags : tagsOf (.list (s.tags.map .str)) = .ok (s.tags.filter (· != "")) :=
    ifWritable_eq_ok_iff.mpr ⟨any_isTooLong_map_str s.tags, tagItems_map_str s.tags⟩
  exact withLayer_eq_ok_iff.mpr
    ⟨_, _, _, _, _, some _, rfl, rfl, rfl, rfl, rfl, congrArg (Except.map some) htags, rfl⟩

/-- Settings that were reached come back over any other settings, unless the empty text is their only tag. That tag
is lost on the way; no value but a lone empty text stands for it. -/
theorem comes_back {s : Settings Bool} (h : Reachable s) (base : Settings Bool) :
    (base.withLayer id (s.toLayer .bool) = .ok s ↔ s.tags ≠ [""]) ∧
      (s.tags = [""] → base.withLayer id (s.toLayer .bool) = .ok { s with tags := [] }) ∧
      ∀ v, tagsOf v = .ok [""] ↔ v = .str "" := by
  rw [withLayer_toLayer, h.areSettled.filter_eq]
  refine ⟨?_, fun hlone => by rw [if_pos hlone], fun v => ⟨fun hv => ?_, by rintro rfl; rfl⟩⟩
  · by_cases hlone : s.tags = [""]
    · rw [if_pos hlone]
      refine iff_of_false (fun hback => ?_) (not_not_intro hlone)
      have htags : [] = s.tags := congrArg Settings.tags (Except.ok.inj hback)
      exact absurd (htags.trans hlone) (by decide)
    · rw [if_neg hlone]
      exact iff_of_true rfl hlone
  · exact ((tagsOf_cases hv).resolve_right (· List.mem_cons_self)).1

/-- A layer that names two tags, one of them empty, and a layer that turns a flag off. -/
theorem comes_back_twoLayers :
    let s : Settings Bool := { defaults id with tags := ["TODO"], useDocStyle := false }
    Reachable s ∧ (defaults id).withLayer id (s.toLayer .bool) = .ok s := by
  have hfirst : Reachable { defaults id with tags := ["TODO"] } :=
    .layer .defaults
      (show (defaults id).withLayer id (.object [("tags", .list [.str "TODO", .str ""])]) = .ok _ from rfl)
  have hsecond : Reachable { defaults id with tags := ["TODO"], useDocStyle := false } :=
    .layer hfirst
      (show Settings.withLayer id { defaults id with tags := ["TODO"] } (.object [("useJSDocStyle", .bool false)]) =
        .ok _ from rfl)
  exact ⟨hsecond, (comes_back hsecond (defaults id)).1.mpr (by decide)⟩

/-- A lone empty text as the tags of a layer is a tag that does not come back. -/
theorem not_comes_back_emptyTag :
    ¬ ∀ s : Settings Bool, Reachable s → ∀ base : Settings Bool, base.withLayer id (s.toLayer .bool) = .ok s := by
  intro hall
  have hreach : Reachable { defaults id with tags := [""] } :=
    .layer .defaults (show (defaults id).withLayer id (.object [("tags", .str "")]) = .ok _ from rfl)
  have hback := hall _ hreach (defaults id)
  have hlost : (defaults id).withLayer id (toLayer .bool { defaults id with tags := [""] }) =
      .ok { defaults id with tags := [] } := rfl
  exact absurd (hlost.symm.trans hback) (by decide)

end Settings

end CommentGrade
