import CommentGrade.Proofs.Language.Identifiers
import CommentGrade.Proofs.Report.Agreement
import Mathlib.Data.List.MinMax

/-!
# Proposed languages

Where the comments of a language are not known, the run says so and may propose another language. What it proposes is the
first of the likeliest identifiers, it is never the language itself, and its comments are known: the registry has a
profile with a line delimiter for it. There is one exception. Plain text is among the identifiers whatever the settings
say, but its comments are known only where the settings want them, so it may be proposed in vain.
-/
namespace CommentGrade

namespace Language

section Best

variable {α : Type}

theorem best?_eq_argmax [LinearOrder α] (score : String → α) (ids : List String) :
    best? score ids = (ids.argmax score).map fun id => (id, score id) := by
  have hfold : ∀ (ids : List String) (id : String),
      some (ids.foldl (fun b c => if b.2 < score c then (c, score c) else b) (id, score id)) =
        (ids.foldl (List.argAux fun b c => score c < score b) (some id)).map fun id => (id, score id) := by
    intro ids
    induction ids with
    | nil => exact fun _ => rfl
    | cons c ids ih =>
      intro id
      simp only [List.foldl_cons, List.argAux]
      split_ifs
      · exact ih c
      · exact ih id
  cases ids with
  | nil => rfl
  | cons id ids => exact hfold ids id

variable [LT α] [DecidableLT α]

theorem mem_of_best? {score : String → α} {ids : List String} {id : String} {s : α}
    (h : best? score ids = some (id, s)) : id ∈ ids := by
  have hfold : ∀ (ids : List String) (b : String × α),
      (ids.foldl (fun b c => if b.2 < score c then (c, score c) else b) b).1 ∈ b.1 :: ids := by
    intro ids
    induction ids with
    | nil => exact fun _ => List.mem_cons_self
    | cons c ids ih =>
      intro b
      simp only [List.foldl_cons]
      split_ifs
      · exact List.mem_cons_of_mem b.1 (ih (c, score c))
      · rcases List.mem_cons.mp (ih b) with hb | hmem
        · exact hb ▸ List.mem_cons_self
        · exact List.mem_cons_of_mem b.1 (List.mem_cons_of_mem c hmem)
  cases ids with
  | nil => cases h
  | cons first ids =>
    have hmem := hfold ids (first, score first)
    rwa [Option.some.inj h] at hmem

theorem mem_of_suggest? [LE α] [DecidableLE α] {score : String → String → α} {threshold : α} {name id : String}
    (h : suggest? score threshold name = some id) : id ∈ supportedIds := by
  unfold suggest? at h
  split_ifs at h with hempty hname
  · obtain rfl := Option.some.inj h
    exact List.contains_iff_mem.mp hname
  · cases hbest : best? (score name) supportedIds with
    | none =>
      rw [hbest] at h
      cases h
    | some best =>
      rw [hbest] at h
      dsimp only at h
      split_ifs at h
      obtain rfl := Option.some.inj h
      exact mem_of_best? hbest

end Best

end Language

namespace CommandLine

open Analysis CommentGrade.Language

section Proposals

variable {α : Type} [LT α] [DecidableLT α] [LE α] [DecidableLE α] {env : Environment α} {s : Settings Bool}
  {language other : String}

/-- The warning about a language that proposes another one in its place. -/
def proposal (language other : String) : Record :=
  ⟨.warning, Log.originOf (some "cli"), "language '" ++ language ++ "' is not supported" ++
    (" (did you mean '" ++ other ++ "'?)") ++ "; no comments will be reported"⟩

/-- What is proposed can be read off the warning. -/
theorem warning?_eq_proposal_iff : warning? env s language = some (proposal language other) ↔
    (language ≠ "" ∧ (profileOf s language).supported = false) ∧ hint? env language = some other := by
  unfold warning? proposal
  by_cases hknown : language = "" ∨ (profileOf s language).supported
  · rw [if_pos hknown]
    simp only [reduceCtorEq, false_iff, not_and_or]
    exact .inl (hknown.imp not_not.mpr (by simp))
  · rw [if_neg hknown]
    have hunknown : language ≠ "" ∧ (profileOf s language).supported = false := by simpa using hknown
    simp only [Option.some.injEq, Record.mk.injEq, true_and, hunknown, ne_eq, not_false_eq_true]
    cases hint? env language with
    | none => simp [← String.toList_inj]
    | some id => simp [← String.toList_inj]

/-- The comments of an identifier are known, unless it is plain text and the settings do not want it. -/
theorem supported_profileOf_iff (h : language ∈ supportedIds) :
    (profileOf s language).supported = true ↔ language ≠ plainTextId ∨ s.highlightPlainText = true := by
  rcases mem_supportedIds_iff.mp h with rfl | hgroup
  · simp [profileOf, profileFor, plainTextProfile]
  · simp [profileOf, (profileFor_of_mem_group hgroup s.highlightPlainText).1, ne_plainTextId hgroup]

theorem isSome_linePattern (h : language ∈ supportedIds) (hs : (profileOf s language).supported = true) :
    (Comment.Patterns.ofProfile (profileOf s language) (scopeOf s)).line.isSome = true := by
  have hline : ∀ {profile : Profile}, profile.supported = true →
      (profile.plainText = true ∧ (scopeOf s).plainText = true ∨ ∃ d, profile.lineDelimiter = some d ∧ d ≠ "") →
      (Comment.Patterns.ofProfile profile (scopeOf s)).line.isSome = true := by
    intro profile hsupported hhead
    rw [Comment.LineHead.ofProfile_line hsupported, Option.isSome_map, Comment.LineHead.ofProfile?]
    split_ifs with hplain
    · rfl
    · rcases hhead with ⟨hprofile, hscope⟩ | ⟨d, hd, hne⟩
      · exact absurd (by rw [hprofile, hscope]; rfl) hplain
      · simp [hd, hne]
  apply hline hs
  rcases mem_supportedIds_iff.mp h with rfl | hgroup
  · have hwanted := (supported_profileOf_iff h).mp hs
    exact .inl ⟨rfl, hwanted.resolve_left (not_not.mpr rfl)⟩
  · exact .inr (profileFor_of_mem_group hgroup _).2

theorem hint?_ne (h : hint? env language = some other) : other ≠ language := by
  simpa using (Option.filter_eq_some_iff.mp h).2

theorem mem_of_hint? (h : hint? env language = some other) : other ∈ supportedIds :=
  mem_of_suggest? (Option.filter_eq_some_iff.mp h).1

/-- What a warning proposes is not the language itself. Its comments are known, and then a run with it warns of nothing
and searches the lines of its texts for comments, unless plain text is proposed that the settings do not want. -/
theorem proposal_usable_iff (h : warning? env s language = some (proposal language other)) :
    other ≠ language ∧
    ((profileOf s other).supported = true ↔ ¬(other = plainTextId ∧ s.highlightPlainText = false)) ∧
    ((profileOf s other).supported = true → warning? env s other = none ∧
      (Comment.Patterns.ofProfile (profileOf s other) (scopeOf s)).line.isSome = true) := by
  obtain ⟨-, hhint⟩ := warning?_eq_proposal_iff.mp h
  have hmem := mem_of_hint? hhint
  refine ⟨hint?_ne hhint, ?_, ?_⟩
  · rw [supported_profileOf_iff hmem, not_and_or, Bool.not_eq_false]
  · intro hs
    exact ⟨if_pos (.inr hs), isSome_linePattern hmem hs⟩

end Proposals

/-- The share of the letters of two names that both have in the same order, out of a hundred. -/
def sharedLetters (a b : String) : Rat :=
  200 * (commonLength a.toList b.toList : Nat) / (a.length + b.length : Nat)

/-- An environment where names are as like as the letters they share. -/
def lettersEnvironment : Environment Rat := { constantEnvironment (.whole 3) with likeness := sharedLetters }

section Letters

variable {language other : String}

theorem hint?_lettersEnvironment (hempty : language ≠ "") (hlanguage : language ∉ supportedIds)
    (hother : other ∈ supportedIds) (henough : 80 ≤ sharedLetters language other)
    (hmost : ∀ id ∈ supportedIds, id ≠ other → sharedLetters language id < sharedLetters language other) :
    hint? lettersEnvironment language = some other := by
  have hargmax : supportedIds.argmax (sharedLetters language) = some other := by
    refine List.argmax_eq_some_iff.mpr ⟨hother, fun id hid => ?_, fun id hid hle => ?_⟩
    · by_cases heq : id = other
      · rw [heq]
      · exact (hmost id hid heq).le
    · by_cases heq : id = other
      · rw [heq]
      · exact absurd hle (not_le.mpr (hmost id hid heq))
  have hsuggest : suggest? sharedLetters 80 language = some other := by
    rw [suggest?, if_neg hempty, if_neg (mt List.contains_iff_mem.mp hlanguage), best?_eq_argmax, hargmax]
    exact if_pos henough
  have hne : other ≠ language := by
    rintro rfl
    exact hlanguage hother
  change (suggest? sharedLetters 80 language).filter (· != language) = some other
  simp [hsuggest, hne]

theorem forall_mem_supportedIds {P : String → Prop} (hplain : P plainTextId) (hgroups : ∀ g ∈ groups, ∀ id ∈ g.1, P id) :
    ∀ id ∈ supportedIds, P id := by
  intro id h
  rcases mem_supportedIds_iff.mp h with rfl | ⟨g, hg, hid⟩
  · exact hplain
  · exact hgroups g hg id hid

end Letters

/-- A language that lacks a letter is proposed with it. -/
theorem proposal_usable_iff_python :
    let env := lettersEnvironment
    let s := Settings.defaults id
    warning? env s "pyton" = some (proposal "pyton" "python") ∧ "python" ≠ "pyton" ∧
      (profileOf s "python").supported = true ∧ warning? env s "python" = none := by
  intro env s
  have hhint : hint? env "pyton" = some "python" := by
    apply hint?_lettersEnvironment (by decide)
    · rw [mem_supportedIds_iff]
      decide +kernel
    · rw [mem_supportedIds_iff]
      decide +kernel
    · decide +kernel
    · exact forall_mem_supportedIds (by decide +kernel) (by decide +kernel)
  have hunknown : (profileOf s "pyton").supported = false := by decide
  have hwarning := warning?_eq_proposal_iff.mpr ⟨⟨by decide, hunknown⟩, hhint⟩
  obtain ⟨hne, hsupported, hquiet⟩ := proposal_usable_iff hwarning
  have hknown := hsupported.mpr (by decide)
  exact ⟨hwarning, hne, hknown, (hquiet hknown).1⟩

/-- By default plain text is not wanted, and it is proposed all the same. -/
theorem not_proposal_usable_plainText :
    ¬∀ (env : Environment Rat) s language other, warning? env s language = some (proposal language other) →
      other ≠ language ∧ (profileOf s other).supported = true := by
  intro hall
  have hhint : hint? lettersEnvironment "plaintex" = some plainTextId := by
    apply hint?_lettersEnvironment (by decide)
    · rw [mem_supportedIds_iff]
      decide +kernel
    · exact mem_supportedIds_iff.mpr (.inl rfl)
    · decide +kernel
    · exact forall_mem_supportedIds (by decide +kernel) (by decide +kernel)
  have hunknown : (profileOf (Settings.defaults id) "plaintex").supported = false := by decide
  have hwarning := warning?_eq_proposal_iff.mpr ⟨⟨by decide, hunknown⟩, hhint⟩
  have hsupported := (hall _ _ _ _ hwarning).2
  exact absurd hsupported (by decide)

end CommandLine

end CommentGrade
