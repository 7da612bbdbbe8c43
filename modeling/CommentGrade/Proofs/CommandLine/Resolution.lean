import CommentGrade.Proofs.Settings.Composition
import CommentGrade.Proofs.Settings.Failures
import CommentGrade.Proofs.Settings.RoundTrip

/-!
# Where the settings of a run come from

The settings of a run have three sources, one above the other: options, the settings file, and defaults. Each field has
the value of the uppermost source that has one for it. An option is left out or given; a key of a settings file is
missing or there, and null under a key is a value.
-/
namespace CommentGrade.CommandLine

open Settings Value

section Sources

variable {F : Type} {yaml : DocumentReader} {flag : Bool → F} {base t : Settings F} {disk : Disk} {path : String}

theorem load_eq_ok_iff : Settings.load yaml flag base disk path = .ok t ↔
    ∃ cs data, textOf? disk path = some cs ∧ Settings.parse yaml (formatAt path) cs = .ok data ∧
      base.withLayer flag (layerOf data) = .ok t := by
  constructor
  · intro h
    cases htext : textOf? disk path with
    | none =>
      unfold Settings.load at h
      unfold textOf? formatAt at htext
      cases hbytes : disk.content? (Path.ofString path) <;> simp_all
    | some cs =>
      rw [load_of_textOf? htext] at h
      cases hparse : Settings.parse yaml (formatAt path) cs with
      | error e => simp [hparse] at h
      | ok data =>
        rw [hparse] at h
        exact ⟨cs, data, rfl, hparse, mapError_eq_ok_iff.mp h⟩
  · rintro ⟨cs, data, htext, hparse, hlayer⟩
    rw [load_of_textOf? htext, hparse]
    exact mapError_eq_ok_iff.mpr hlayer

/-- The layer of the settings file that is named on the command line; empty if none is. -/
inductive FileLayer (yaml : DocumentReader) (o : Options) (disk : Disk) : Value → Prop
  | unnamed : o.settingsPath.getD "" = "" → FileLayer yaml o disk (.map [])
  | named {path : String} {cs : List Char} {data : Value} : o.settingsPath = some path → path ≠ "" →
      textOf? disk path = some cs → Settings.parse yaml (formatAt path) cs = .ok data → FileLayer yaml o disk (layerOf data)

/-- Each field has the value of the option if it is given, else of the key in the settings file if it is there, else the
default. Two fields have no option. -/
def resolved (o : Options) (file : Value) : Settings Bool where
  multilineComments := (o.multilineComments.or (flagIn? file "multilineComments")).getD true
  highlightPlainText := (o.highlightPlainText.or (flagIn? file "highlightPlainText")).getD false
  useDocStyle := (o.useDocStyle.or (flagIn? file "useJSDocStyle")).getD true
  tags := ((o.tags.map fun tags => tags.filter (· != "")).or (tagsIn? file)).getD defaultTags
  showNotes := (flagIn? file "showAnnotations").getD true
  estimatedReadingTime := (flagIn? file "estimatedReadingTime").getD true

theorem merged_overrides (o : Options) (s : Settings Bool) : s.merged o.overrides = .ok {
    multilineComments := o.multilineComments.getD s.multilineComments
    highlightPlainText := o.highlightPlainText.getD s.highlightPlainText
    useDocStyle := o.useDocStyle.getD s.useDocStyle
    tags := (o.tags.map fun tags => tags.filter (· != "")).getD s.tags
    showNotes := s.showNotes
    estimatedReadingTime := s.estimatedReadingTime } := by
  unfold Settings.merged Options.overrides
  cases o.tags with
  | none => rfl
  | some tags =>
    have htags : tagsOf (.list (tags.map .str)) = .ok (tags.filter (· != "")) :=
      ifWritable_eq_ok_iff.mpr ⟨any_isTooLong_map_str tags, tagItems_map_str tags⟩
    simp only [Option.map_some, htags]
    rfl

theorem settings_of_unnamed {o : Options} (h : o.settingsPath.getD "" = "") (disk : Disk) :
    o.settings yaml disk = ((Settings.defaults id).merged o.overrides).mapError .settings := by
  unfold Options.settings
  cases hpath : o.settingsPath with
  | none => rfl
  | some path =>
    obtain rfl : path = "" := by simpa [hpath] using h
    rfl

theorem settings_of_named {o : Options} (hpath : o.settingsPath = some path) (hne : path ≠ "") (disk : Disk) :
    o.settings yaml disk = Settings.load yaml id (Settings.defaults id) disk path >>= fun below =>
      (below.merged o.overrides).mapError .settings := by
  unfold Options.settings
  rw [hpath]
  split
  next h => cases h
  next h => exact absurd (Option.some.inj h) hne
  next h =>
    obtain rfl := Option.some.inj h
    rfl

theorem settings_eq_ok_iff {o : Options} {s : Settings Bool} : o.settings yaml disk = .ok s ↔
    ∃ file below, FileLayer yaml o disk file ∧ (Settings.defaults id).withLayer id file = .ok below ∧
      below.merged o.overrides = .ok s := by
  have hempty : (Settings.defaults id).withLayer id (.map []) = .ok (Settings.defaults id) := rfl
  constructor
  · intro h
    by_cases hpath : o.settingsPath.getD "" = ""
    · rw [settings_of_unnamed hpath, mapError_eq_ok_iff] at h
      exact ⟨_, _, .unnamed hpath, hempty, h⟩
    · obtain ⟨path, hsome⟩ : ∃ path, o.settingsPath = some path := by
        cases hsome : o.settingsPath with
        | none => simp [hsome] at hpath
        | some path => exact ⟨path, rfl⟩
      have hne : path ≠ "" := by simpa [hsome] using hpath
      rw [settings_of_named hsome hne, bind_eq_ok_iff] at h
      obtain ⟨below, hload, hmerged⟩ := h
      obtain ⟨cs, data, htext, hparse, hlayer⟩ := load_eq_ok_iff.mp hload
      exact ⟨_, below, .named hsome hne htext hparse, hlayer, mapError_eq_ok_iff.mp hmerged⟩
  · rintro ⟨file, below, hfile, hlayer, hmerged⟩
    cases hfile with
    | unnamed hpath =>
      obtain rfl : Settings.defaults id = below := Except.ok.inj (hempty.symm.trans hlayer)
      rw [settings_of_unnamed hpath, hmerged]
      rfl
    | named hsome hne htext hparse =>
      rw [settings_of_named hsome hne, bind_eq_ok_iff]
      exact ⟨below, load_eq_ok_iff.mpr ⟨_, _, htext, hparse, hlayer⟩, mapError_eq_ok_iff.mpr hmerged⟩

theorem merged_layered (o : Options) (file : Value) :
    (layered id (Settings.defaults id) file).merged o.overrides = .ok (resolved o file) := by
  rw [merged_overrides]
  simp [layered, resolved, Settings.defaults]

/-- The settings of a run are those that are resolved, provided that the file is read and its layer accepted. -/
theorem settings_resolved {o : Options} {s : Settings Bool} : o.settings yaml disk = .ok s ↔
    ∃ file, FileLayer yaml o disk file ∧ (∃ below, (Settings.defaults id).withLayer id file = .ok below) ∧
      s = resolved o file := by
  rw [settings_eq_ok_iff]
  constructor
  · rintro ⟨file, below, hfile, hlayer, hmerged⟩
    refine ⟨file, hfile, ⟨below, hlayer⟩, ?_⟩
    obtain ⟨-, rfl⟩ := withLayer_eq_layered_iff.mp hlayer
    rw [merged_layered] at hmerged
    exact (Except.ok.inj hmerged).symm
  · rintro ⟨file, hfile, ⟨below, hlayer⟩, rfl⟩
    refine ⟨file, below, hfile, hlayer, ?_⟩
    obtain ⟨-, rfl⟩ := withLayer_eq_layered_iff.mp hlayer
    exact merged_layered o file

end Sources

/-- Layers compose. One accepted mapping after the other sets what the two set as one mapping, in which the values of the
later one stand; keys without a meaning set nothing. A mapping is refused exactly for a flag that is no truth value and
for tags that are a moment or hold an integer with too many digits to be written, so that tags of JSON without such an
integer are never the reason. The settings of a run have, field by field, the value of the uppermost source. -/
theorem layers_compose {F : Type} (flag : Bool → F) (base : Settings F) :
    (∀ lower upper both, (∃ s, base.withLayer flag lower = .ok s) → (∃ s, base.withLayer flag upper = .ok s) →
      Overlays lower upper both →
      ∃ s t, base.withLayer flag lower = .ok s ∧ s.withLayer flag upper = .ok t ∧ base.withLayer flag both = .ok t) ∧
    (∀ lower upper, Overlays (.map lower) (.map upper) (.map (overlay lower upper))) ∧
    (∀ es fs, (∀ key ∈ "tags" :: flagKeys, (Value.map es).get? key = (Value.map fs).get? key) →
      base.withLayer flag (.map es) = base.withLayer flag (.map fs)) ∧
    (∀ es, (∃ e, base.withLayer flag (.map es) = .error e) ↔
      (∃ key ∈ flagKeys, ∃ v, (Value.map es).get? key = some v ∧ ∀ b, v ≠ .bool b) ∨
        ∃ v, (Value.map es).get? "tags" = some v ∧ RefusedTags v) ∧
    (∀ v, v.IsJson → (RefusedTags v ↔ ∃ w ∈ tagSources v, w.isTooLong = true)) ∧
    (∀ (o : Options) yaml disk s, o.settings yaml disk = .ok s ↔
      ∃ file, FileLayer yaml o disk file ∧ (∃ below, (Settings.defaults id).withLayer id file = .ok below) ∧
        s = resolved o file) := by
  refine ⟨?_, overlays_overlay, fun _ _ => withLayer_congr, fun _ => exists_error_iff, ?_, fun _ _ _ _ =>
    settings_resolved⟩
  · intro lower upper both hlower hupper hboth
    rw [exists_withLayer_iff] at hlower hupper
    have hfits := hlower.overlays hupper hboth
    refine ⟨_, _, withLayer_eq_layered_iff.mpr ⟨hlower, rfl⟩, withLayer_eq_layered_iff.mpr ⟨hupper, rfl⟩, ?_⟩
    exact withLayer_eq_layered_iff.mpr ⟨hfits, layered_overlays hupper hboth⟩
  · intro v hv
    refine or_iff_right ?_
    rintro ⟨m, rfl⟩
    cases hv

/-- The least integer that is too long to be written is refused in the place of the tags, with no flag in sight. -/
theorem not_layers_accepted_tooLong :
    let tags : Value := .int (10 ^ Number.maxDigits)
    let data := Value.object [("tags", tags)]
    tags.IsJson ∧ data.IsJson ∧ (∀ key ∈ flagKeys, data.get? key = none) ∧
      (Settings.defaults id).withLayer id data = .error .tooLong := by
  intro tags data
  have hjson : tags.IsJson := .int _
  have hdata : data.IsJson := .map (by simp) (by simpa using hjson)
  have hlong : tags.isTooLong = true := by
    simp [tags, Value.isTooLong, Nat.pow_eq, Int.natAbs_pow]
  have hflags : ∀ key ∈ flagKeys, data.get? key = none := by
    simp [flagKeys, data, Value.object, Value.get?, lookup]
  have htags : tagsIn data = .error .tooLong :=
    tagsIn_eq_error_iff.mpr ⟨tags, rfl, tagsOf_eq_error_iff.mpr (.inr ⟨by simp [tagSources, tags, hlong], rfl⟩)⟩
  have hfits : FlagsFit data := fun key hkey => exists_flagOf_iff.mpr fun v hv => by simp [hflags key hkey] at hv
  exact ⟨hjson, hdata, hflags, withLayer_of_flagsFit hfits htags⟩

end CommentGrade.CommandLine
