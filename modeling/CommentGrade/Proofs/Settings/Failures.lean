import CommentGrade.CommandLine.Run
import CommentGrade.Proofs.Json.Contents
import CommentGrade.Proofs.Settings.Layers

/-!
# Settings files that are not loaded

Almost every failure to load a settings file is one that the user is told about. Two kinds are not: a moment in the place
of the tags, and an error that the reader of YAML raises on its own account. A reader with no errors but its own leaves
only the first.
-/
namespace CommentGrade

namespace Settings

/-- The format of the settings file at a path. -/
def formatAt (path : String) : SettingsFormat := formatOf (Path.ofString path)

/-- The text of the settings file at a path, if there is one. -/
def textOf? (disk : Disk) (path : String) : Option (List Char) :=
  (disk.content? (Path.ofString path)).bind (decode? (formatAt path))

/-- Why the settings file at a path is not loaded without the user being told. -/
inductive Oversight (yaml : DocumentReader) (disk : Disk) (path : String) : LoadError → Prop
  /-- The tags are a moment, in a layer whose flags fit. JSON has no moments. -/
  | moment {cs : List Char} {data : Value} {m : Moment} : textOf? disk path = some cs →
      parse yaml (formatAt path) cs = .ok data → formatAt path ≠ .json → data.get? "tags" = some (.moment m) →
      FlagsFit data → Oversight yaml disk path (.settings (.notIterable (momentType m)))
  /-- The reader of YAML raises an error of no family that is caught. -/
  | raised {cs : List Char} {name message : String} : textOf? disk path = some cs → formatAt path = .yaml →
      yaml cs = .error (.raised .other name message) → Oversight yaml disk path (.raised .other name message)

/-- A reader that refuses documents only with errors that are caught. -/
def KeepsToItsErrors (yaml : DocumentReader) : Prop :=
  ∀ cs name message, yaml cs ≠ .error (.raised .other name message)

theorem layerOf_of_get? {data v : Value} {key : String} (h : data.get? key = some v) : layerOf data = data := by
  cases data with
  | map es => rfl
  | null | bool _ | int _ | float _ | str _ | moment _ | bytes _ | list _ | tuple _ | set _ => cases h

section

variable {F : Type} {yaml : DocumentReader} {flag : Bool → F} {base : Settings F} {disk : Disk} {path : String}

theorem load_of_textOf? {cs : List Char} (h : textOf? disk path = some cs) :
    load yaml flag base disk path = match parse yaml (formatAt path) cs with
      | .error e => .error e
      | .ok data => (base.withLayer flag (layerOf data)).mapError .settings := by
  obtain ⟨bs, hbs, hcs⟩ := Option.bind_eq_some_iff.mp h
  rw [formatAt] at hcs ⊢
  cases hparse : parse yaml (formatOf (Path.ofString path)) cs <;> simp only [load, hbs, hcs, hparse]

theorem exists_text_of_load {e : LoadError} (h : load yaml flag base disk path = .error e)
    (he : e.isForeseen = false) : ∃ cs, textOf? disk path = some cs := by
  unfold load at h
  dsimp only at h
  split at h
  · cases h
    cases he
  · next bs hbs =>
    split at h
    · cases h
      cases he
    · next cs hcs => exact ⟨cs, Option.bind_eq_some_iff.mpr ⟨bs, hbs, hcs⟩⟩

theorem isForeseen_ofFormat (format : SettingsFormat) (e : FormatError) :
    (LoadError.ofFormat format e).isForeseen = true := by
  cases e <;> rfl

/-- Only the reader of YAML has errors that the user is not told about. -/
theorem oversight_of_parse {cs : List Char} {e : LoadError} (htext : textOf? disk path = some cs)
    (h : parse yaml (formatAt path) cs = .error e) (he : e.isForeseen = false) : Oversight yaml disk path e := by
  cases hformat : formatAt path with
  | toml =>
    rw [hformat] at h
    obtain ⟨r, -, rfl⟩ := mapError_eq_error_iff.mp h
    exact nomatch he.symm.trans (isForeseen_ofFormat _ r)
  | json =>
    rw [hformat] at h
    obtain ⟨r, -, rfl⟩ := mapError_eq_error_iff.mp h
    exact nomatch he.symm.trans (isForeseen_ofFormat _ r)
  | yaml =>
    rw [hformat] at h
    obtain ⟨r, hr, rfl⟩ := mapError_eq_error_iff.mp h
    cases r with
    | malformed => cases he
    | raised family name message =>
      cases family with
      | other => exact .raised htext hformat hr
      | value | system | runtime => cases he

/-- Of the layers only one whose tags are a moment is refused without the user being told. -/
theorem oversight_of_withLayer {cs : List Char} {data : Value} {e : SettingsError}
    (htext : textOf? disk path = some cs) (hdata : parse yaml (formatAt path) cs = .ok data)
    (h : base.withLayer flag (layerOf data) = .error e) (he : (LoadError.settings e).isForeseen = false) :
    Oversight yaml disk path (.settings e) := by
  cases hlayer : layerOf data with
  | map es =>
    rw [hlayer] at h
    rcases withLayer_eq_error h with ⟨key, -, hkey⟩ | ⟨hflags, htags⟩
    · obtain ⟨v, -, -, rfl⟩ := flagOf_eq_error_iff.mp hkey
      split_ifs at he <;> cases he
    · obtain ⟨v, hv, hve⟩ := tagsIn_eq_error_iff.mp htags
      rcases tagsOf_eq_error_iff.mp hve with ⟨m, rfl, rfl⟩ | ⟨-, rfl⟩
      · have hmap : layerOf data = data := by
          cases data with
          | null => cases hlayer; cases hv
          | _ => rfl
        have hes : data = .map es := hmap.symm.trans hlayer
        subst hes
        refine .moment htext hdata (fun hjson => ?_) hv hflags
        rw [hjson] at hdata
        exact Json.get?_ne_moment (mapError_eq_ok_iff.mp hdata) "tags" m hv
      · cases he
  | null | bool _ | int _ | float _ | str _ | moment _ | bytes _ | list _ | tuple _ | set _ =>
    rw [hlayer] at h
    cases h
    cases he

theorem isForeseen_of_oversight {e : LoadError} (h : Oversight yaml disk path e) : e.isForeseen = false := by
  cases h <;> rfl

theorem isForeseen_eq_false_iff {e : LoadError} (h : load yaml flag base disk path = .error e) :
    e.isForeseen = false ↔ Oversight yaml disk path e := by
  refine ⟨fun he => ?_, isForeseen_of_oversight⟩
  obtain ⟨cs, htext⟩ := exists_text_of_load h he
  rw [load_of_textOf? htext] at h
  split at h
  · next r hr =>
    cases h
    exact oversight_of_parse htext hr he
  · next data hdata =>
    obtain ⟨s, hs, rfl⟩ := mapError_eq_error_iff.mp h
    exact oversight_of_withLayer htext hdata hs he

theorem Oversight.exists_moment (hyaml : KeepsToItsErrors yaml) {e : LoadError} (h : Oversight yaml disk path e) :
    ∃ cs data m, textOf? disk path = some cs ∧ parse yaml (formatAt path) cs = .ok data ∧ formatAt path ≠ .json ∧
      data.get? "tags" = some (.moment m) ∧ e = .settings (.notIterable (momentType m)) := by
  cases h with
  | moment htext hdata hformat htags _ => exact ⟨_, _, _, htext, hdata, hformat, htags, rfl⟩
  | raised _ _ hraised => exact absurd hraised (hyaml _ _ _)

theorem load_of_moment {cs : List Char} {data : Value} {m : Moment} (htext : textOf? disk path = some cs)
    (hdata : parse yaml (formatAt path) cs = .ok data) (htags : data.get? "tags" = some (.moment m))
    (hflags : FlagsFit data) : load yaml flag base disk path = .error (.settings (.notIterable (momentType m))) := by
  have herror : tagsIn data = .error (.notIterable (momentType m)) := tagsIn_eq_error_iff.mpr ⟨_, htags, rfl⟩
  rw [load_of_textOf? htext, hdata]
  simp only [layerOf_of_get? htags]
  cases data with
  | map es => rw [withLayer_of_flagsFit hflags herror]; rfl
  | null | bool _ | int _ | float _ | str _ | moment _ | bytes _ | list _ | tuple _ | set _ => cases htags

end

end Settings

namespace CommandLine

variable {α : Type} [LT α] [DecidableLT α] [LE α] [DecidableLE α] [Add α] [Sub α] [Mul α] [Div α] [OfScientific α]
  [NatCast α] [BEq α] [Number.Measure α] [Number.Placed α]

/-- The messages of a run that ends because its settings are not loaded. -/
def failureMessages (o : Options) : List String :=
  (Log.configure o.verbose none {}).console ++ ["Failed to load config"]

theorem runWith_of_settings_error {env : Environment α} {disk : Disk} {o : Options} {paths : List String}
    {e : LoadError} (hlist : o.listLanguages = false) (h : o.settings env.yaml disk = .error e) :
    runWith env disk o paths =
      if e.isForeseen then .ok ⟨2, "", failureMessages o⟩ else .error (.settings e) := by
  simp only [runWith, hlist, h]
  rfl

theorem settings_of_load_error {yaml : DocumentReader} {disk : Disk} {o : Options} {path : String} {e : LoadError}
    (hpath : o.settingsPath = some path) (hne : path ≠ "")
    (h : Settings.load yaml id (Settings.defaults id) disk path = .error e) : o.settings yaml disk = .error e := by
  simp only [Options.settings, hpath]
  rw [h]
  rfl

end CommandLine

namespace Settings

open CommandLine

/-- A settings file is not loaded without the user being told exactly where there is an oversight, and a moment in the
place of the tags always is one; it is the only one if the reader of YAML keeps to its errors. No other value is refused
as tags, unless it holds an integer that is too long to be written. Where the user is told, the run ends with code 2, else
it breaks off. -/
theorem load_failures {F : Type} (yaml : DocumentReader) (flag : Bool → F) (base : Settings F) (disk : Disk)
    (path : String) :
    (∀ e, load yaml flag base disk path = .error e → (e.isForeseen = false ↔ Oversight yaml disk path e)) ∧
      (∀ cs data m, textOf? disk path = some cs → parse yaml (formatAt path) cs = .ok data →
        data.get? "tags" = some (.moment m) → FlagsFit data →
        load yaml flag base disk path = .error (.settings (.notIterable (momentType m)))) ∧
      (KeepsToItsErrors yaml → ∀ e, load yaml flag base disk path = .error e → e.isForeseen = false →
        ∃ cs data m, textOf? disk path = some cs ∧ parse yaml (formatAt path) cs = .ok data ∧
          formatAt path ≠ .json ∧ data.get? "tags" = some (.moment m) ∧
          e = .settings (.notIterable (momentType m))) ∧
      (∀ v, (∃ ts, tagsOf v = .ok ts) ↔ (∀ m, v ≠ .moment m) ∧ (tagSources v).any Value.isTooLong = false) ∧
      ∀ (env : Environment Float) (o : Options) (paths : List String) (e : LoadError), env.yaml = yaml →
        o.listLanguages = false → o.settingsPath = some path → path ≠ "" →
        load yaml id (defaults id) disk path = .error e →
        runWith env disk o paths =
          if e.isForeseen then .ok ⟨2, "", failureMessages o⟩ else .error (.settings e) := by
  refine ⟨fun e => isForeseen_eq_false_iff, fun cs data m => load_of_moment,
    fun hyaml e he hforeseen => ((isForeseen_eq_false_iff he).mp hforeseen).exists_moment hyaml, fun v => ?_, ?_⟩
  · constructor
    · rintro ⟨ts, hts⟩
      refine ⟨?_, Bool.eq_false_iff.mpr fun hlong => ?_⟩
      · rintro m rfl
        cases hts
      · exact nomatch hts.symm.trans (tagsOf_eq_error_iff.mpr (.inr ⟨hlong, rfl⟩))
    · rintro ⟨hmoment, hlong⟩
      cases hv : tagsOf v with
      | ok ts => exact ⟨ts, rfl⟩
      | error e =>
        rcases tagsOf_eq_error_iff.mp hv with ⟨m, rfl, -⟩ | ⟨hyes, -⟩
        · exact absurd rfl (hmoment m)
        · exact absurd hyes (Bool.eq_false_iff.mp hlong)
  · rintro env o paths e rfl hlist hpath hne h
    exact runWith_of_settings_error hlist (settings_of_load_error hpath hne h)

/-- A disk with a settings file that has a date in the place of the tags, in TOML and in YAML, and with one that has a
truth value that is none. -/
def datedTags : Disk where
  tree := .directory [("c.toml", .file "tags = 1979-05-27\n".toUTF8.toList),
    ("d.yaml", .file "tags: 1979-05-27\n".toUTF8.toList), ("x.yaml", .file "x: !!bool maybe\n".toUTF8.toList)]
  place := []

theorem load_failures_datedTags :
    (load Yaml.reader id (defaults id) datedTags "c.toml" = .error (.settings (.notIterable "datetime.date")) ∧
      Oversight Yaml.reader datedTags "c.toml" (.settings (.notIterable "datetime.date"))) ∧
    (load Yaml.reader id (defaults id) datedTags "d.yaml" = .error (.settings (.notIterable "datetime.date")) ∧
      Oversight Yaml.reader datedTags "d.yaml" (.settings (.notIterable "datetime.date"))) ∧
    (load Yaml.reader id (defaults id) datedTags "x.yaml" = .error (.raised .other "KeyError" "'maybe'") ∧
      Oversight Yaml.reader datedTags "x.yaml" (.raised .other "KeyError" "'maybe'")) ∧
    let yaml : DocumentReader := fun _ => .error .malformed
    KeepsToItsErrors yaml ∧ load yaml id (defaults id) datedTags "x.yaml" = .error (.malformed .yaml) ∧
      ∃ cs data m, textOf? datedTags "c.toml" = some cs ∧ parse yaml .toml cs = .ok data ∧
        data.get? "tags" = some (.moment m) ∧ momentType m = "datetime.date" := by
  have hoversight {path : String} {e : LoadError} (he : e.isForeseen = false)
      (h : load Yaml.reader id (defaults id) datedTags path = .error e) :
      load Yaml.reader id (defaults id) datedTags path = .error e ∧ Oversight Yaml.reader datedTags path e :=
    ⟨h, ((load_failures Yaml.reader id (defaults id) datedTags path).1 e h).mp he⟩
  refine ⟨hoversight rfl (by decide +kernel), hoversight rfl (by decide +kernel), hoversight rfl (by decide +kernel), ?_⟩
  intro yaml
  have hyaml : KeepsToItsErrors yaml := nofun
  have hload : load yaml id (defaults id) datedTags "c.toml" = .error (.settings (.notIterable "datetime.date")) := by
    decide +kernel
  obtain ⟨cs, data, m, htext, hdata, -, htags, he⟩ :=
    (load_failures yaml id (defaults id) datedTags "c.toml").2.2.1 hyaml _ hload rfl
  have hformat : formatAt "c.toml" = .toml := by decide +kernel
  injection he with he
  injection he with he
  exact ⟨hyaml, by decide +kernel, cs, data, m, htext, hformat ▸ hdata, htags, he.symm⟩

/-- It is not so that the user is told about every settings file that is not loaded, nor that every value stands for
tags. -/
theorem not_load_foreseen_datedTags :
    ¬(∀ yaml disk path e, load yaml id (defaults id) disk path = .error e → e.isForeseen = true) ∧
      ¬∀ v, ∃ ts, tagsOf v = .ok ts := by
  refine ⟨fun hall => ?_, fun hall => ?_⟩
  · have hload : load Yaml.reader id (defaults id) datedTags "c.toml" =
        .error (.settings (.notIterable "datetime.date")) := by
      decide +kernel
    exact absurd (hall _ _ _ _ hload) (by decide)
  · obtain ⟨ts, hts⟩ := hall (.moment (.day ⟨1979, 5, 27⟩))
    cases hts

end Settings

end CommentGrade
