import CommentGrade.Proofs.ReadingTime.Doubles
import CommentGrade.Proofs.ReadingTime.Fragments
import CommentGrade.Proofs.Text.Words

/-!
# Later starts

A text that is read from a later offset on has no more words, unless the offset is within a deleted fragment: what is left
of the fragment no longer begins like one, so its words count. The time follows the number of words.
-/
namespace CommentGrade.ReadingTime

open Number Text

/-- What a fragment ends with: no closing bracket, and the last opening bracket before the next one. -/
structure IsTail (h rest : List Char) : Prop where
  noClose : '>' ∉ h
  openAtEnd : h = [] ∨ ∃ x, h = x ++ ['<']
  noOpen : '<' ∉ rest.takeWhile (· != '>')

/-- A text begins within a fragment that is deleted from a longer one, with the given rest of the fragment. -/
inductive Cuts (cs : List Char) : List Char → List Char → Prop
  | mk {kept first h rest : List Char} : Scans cs kept (first ++ h ++ rest) → IsFragment (first ++ h) rest →
      first ≠ [] → h ≠ [] → Cuts cs (h ++ rest) h

section Tails

variable {cs f g h rest t kept : List Char}

/-- Behind the end of a fragment no text begins that has no closing bracket and ends with an opening one. -/
theorem eq_nil_of_noOpen {x y : List Char} (hopen : '<' ∉ (x ++ y).takeWhile (· != '>')) (hclose : '>' ∉ x)
    (hend : x = [] ∨ ∃ z, x = z ++ ['<']) : x = [] := by
  rcases hend with hnil | ⟨z, rfl⟩
  · exact hnil
  · have hall : ∀ c ∈ z ++ ['<'], (c != '>') = true := fun c hc => bne_iff_ne.mpr fun heq => hclose (heq ▸ hc)
    rw [List.takeWhile_append_of_pos hall] at hopen
    exact absurd (List.mem_append_left _ (List.mem_append_right z List.mem_cons_self)) hopen

theorem openAtEnd_of_append {x y : List Char} (h : x ++ y = [] ∨ ∃ z, x ++ y = z ++ ['<']) :
    y = [] ∨ ∃ z, y = z ++ ['<'] := by
  rcases List.eq_nil_or_concat y with rfl | ⟨w, c, rfl⟩
  · exact .inl rfl
  · rcases h with hnil | ⟨z, hz⟩
    · exact absurd hnil (by simp)
    · rw [List.concat_eq_append, ← List.append_assoc] at hz
      obtain ⟨-, hc⟩ := List.append_inj' hz rfl
      exact .inr ⟨w, by rw [List.concat_eq_append, hc]⟩

theorem IsTail.of_append {x y : List Char} (h : IsTail (x ++ y) rest) : IsTail y rest :=
  ⟨fun hmem => h.noClose (List.mem_append_right x hmem), openAtEnd_of_append h.openAtEnd, h.noOpen⟩

theorem IsFragment.isTail (hf : IsFragment f rest) : IsTail f rest := by
  cases hf with
  | @mk inner _ hinner hclose hopen =>
    refine ⟨?_, .inr ⟨'<' :: ' ' :: inner, rfl⟩, hopen⟩
    simpa using hclose

theorem IsTail.eq_of_isFragment (hh : IsTail h rest) (hf : IsFragment f g) (heq : h ++ rest = f ++ g) :
    h = f ∧ rest = g := by
  have hf' := hf.isTail
  rcases List.append_eq_append_iff.mp heq with ⟨x, rfl, rfl⟩ | ⟨x, rfl, rfl⟩
  · obtain rfl := eq_nil_of_noOpen hh.noOpen hf'.of_append.noClose hf'.of_append.openAtEnd
    simp
  · obtain rfl := eq_nil_of_noOpen hf'.noOpen hh.of_append.noClose hh.of_append.openAtEnd
    simp

/-- A part of a tail is kept, and all of the text behind it that is kept anyway. -/
theorem IsTail.exists_prefix (hh : IsTail h rest) :
    ∃ g, g <+: h ∧ dropFragments 0 (h ++ rest) = g ++ dropFragments 0 rest := by
  induction h with
  | nil => exact ⟨[], List.prefix_rfl, rfl⟩
  | cons c h ih =>
    rcases noFragment_or_exists (c :: (h ++ rest)) with hnone | ⟨f, tail, heq, hf⟩
    · obtain ⟨g, hg, heq⟩ := ih (IsTail.of_append (x := [c]) hh)
      refine ⟨c :: g, (List.prefix_cons_inj c).mpr hg, ?_⟩
      rw [List.cons_append, dropFragments_cons hnone, heq]
      rfl
    · obtain ⟨rfl, rfl⟩ := hh.eq_of_isFragment hf heq
      exact ⟨[], List.nil_prefix, dropFragments_append hf⟩

end Tails

section Offsets

variable {cs t h kept : List Char}

/-- From a place that is reached on, every end of the text is reached, or it begins within a fragment. -/
theorem Scans.scans_or_cuts {r : List Char} (hscan : Scans cs kept r) (hsuffix : t <:+ r) :
    (∃ kept, Scans cs kept t) ∨ ∃ h, Cuts cs t h := by
  induction r using fragment_induction generalizing kept with
  | nil =>
    obtain rfl := List.suffix_nil.mp hsuffix
    exact .inl ⟨kept, hscan⟩
  | keep c r hnone ih =>
    rcases List.suffix_cons_iff.mp hsuffix with rfl | hbehind
    · exact .inl ⟨kept, hscan⟩
    · exact ih (hscan.keep hnone) hbehind
  | delete f rest hf ih =>
    rcases Nat.le_total t.length rest.length with hle | hle
    · exact ih (hscan.delete hf) (List.suffix_of_suffix_length_le hsuffix (List.suffix_append f rest) hle)
    · obtain ⟨h, rfl⟩ := List.suffix_of_suffix_length_le (List.suffix_append f rest) hsuffix hle
      obtain ⟨first, hfirst⟩ := hsuffix
      rw [← List.append_assoc] at hfirst
      obtain rfl := List.append_cancel_right hfirst
      by_cases hnil : h = []
      · subst hnil
        exact .inl ⟨kept, hscan.delete hf⟩
      by_cases hwhole : first = []
      · subst hwhole
        exact .inl ⟨kept, hscan⟩
      exact .inr ⟨h, .mk hscan hf hwhole hnil⟩

theorem Scans.wordCount_le (hscan : Scans cs kept t) : wordCount t ≤ wordCount cs := by
  rw [wordCount, wordCount, hscan.dropFragments_eq]
  exact (length_words_append _ _).2.1

theorem Cuts.wordCount_le (hcut : Cuts cs t h) : wordCount t ≤ wordCount cs + (words h).length := by
  cases hcut with
  | @mk kept first _ rest hscan hf =>
    obtain ⟨g, ⟨more, rfl⟩, heq⟩ := hf.isTail.of_append.exists_prefix
    rw [wordCount, wordCount, heq, (hscan.delete hf).dropFragments_eq]
    have hpart := (length_words_append g more).1
    have hsum := (length_words_append g (dropFragments 0 rest)).2.2
    have hrest := (length_words_append kept (dropFragments 0 rest)).2.1
    omega

theorem wordCount_le_length (cs : List Char) : wordCount cs ≤ cs.length :=
  (length_words_le _).trans (length_dropFragments_le 0 cs)

end Offsets

section Times

variable {text : List Char} {start speed : ℤ} {c : Clock}

theorem estimate_eq_ok_iff (hspeed : 1 ≤ speed) :
    estimate text start speed = .ok c ↔ clock Float (wordCount (text.drop start.toNat)) speed = .ok c := by
  rw [estimate, if_neg (by omega), mapError_eq_ok_iff]

theorem exists_estimate (htext : text.length < 2 ^ 63) (hspeed : 1 ≤ speed) : ∃ c, estimate text start speed = .ok c := by
  have hlength : wordCount (text.drop start.toNat) ≤ text.length :=
    (wordCount_le_length _).trans (by rw [List.length_drop]; omega)
  obtain ⟨c, hc⟩ := exists_clock_float (hlength.trans_lt (htext.trans (by decide))) hspeed
  exact ⟨c, (estimate_eq_ok_iff hspeed).mpr hc⟩

theorem exists_estimate_of_le {words : ℕ} (hspeed : 1 ≤ speed) (hwords : wordCount (text.drop start.toNat) ≤ words)
    (hc : clock Float words speed = .ok c) : ∃ d, estimate text start speed = .ok d ∧ d.inSeconds ≤ c.inSeconds := by
  obtain ⟨d, hd, hle⟩ := clock_float_mono hspeed hwords hc
  exact ⟨d, (estimate_eq_ok_iff hspeed).mpr hd, hle⟩

theorem Cuts.length_words_le {cs t h : List Char} (hcut : Cuts cs t h) : (words h).length ≤ t.length := by
  cases hcut with
  | @mk kept first _ rest =>
    rw [List.length_append]
    exact (Text.length_words_le h).trans (Nat.le_add_right _ _)

end Times

/-- A later start takes no longer where it is not within a fragment that is deleted from the earlier start on, and
otherwise no longer than with the words of the rest of that fragment in addition. Texts that fit into memory take some
time. -/
theorem estimate_later (text : List Char) {first later speed : ℤ} (hspeed : 1 ≤ speed) (hlater : first ≤ later) :
    ((∃ kept, Scans (text.drop first.toNat) kept (text.drop later.toNat)) ∨
      ∃ h, Cuts (text.drop first.toNat) (text.drop later.toNat) h) ∧
    (∀ kept, Scans (text.drop first.toNat) kept (text.drop later.toNat) → ∀ c, estimate text first speed = .ok c →
      ∃ d, estimate text later speed = .ok d ∧ d.inSeconds ≤ c.inSeconds) ∧
    (∀ h, Cuts (text.drop first.toNat) (text.drop later.toNat) h →
      ∀ c, clock Float (wordCount (text.drop first.toNat) + (words h).length : ℕ) speed = .ok c →
        ∃ d, estimate text later speed = .ok d ∧ d.inSeconds ≤ c.inSeconds) ∧
    (text.length < 2 ^ 63 → (∃ c, estimate text first speed = .ok c) ∧ (∃ d, estimate text later speed = .ok d) ∧
      ∀ h, Cuts (text.drop first.toNat) (text.drop later.toNat) h →
        ∃ c, clock Float (wordCount (text.drop first.toNat) + (words h).length : ℕ) speed = .ok c) := by
  have hsuffix : text.drop later.toNat <:+ text.drop first.toNat :=
    List.drop_suffix_drop_left text (Int.toNat_le_toNat hlater)
  refine ⟨Scans.start.scans_or_cuts hsuffix, ?_, ?_, ?_⟩
  · intro kept hscan c hc
    exact exists_estimate_of_le hspeed hscan.wordCount_le ((estimate_eq_ok_iff hspeed).mp hc)
  · intro h hcut c hc
    exact exists_estimate_of_le hspeed hcut.wordCount_le hc
  · intro htext
    refine ⟨exists_estimate htext hspeed, exists_estimate htext hspeed, fun h hcut => ?_⟩
    have hall := wordCount_le_length (text.drop first.toNat)
    have hrest := hcut.length_words_le
    rw [List.length_drop] at hall hrest
    exact exists_clock_float (by omega) hspeed

/-- A start within a fragment may take longer: behind its first bracket the words of a fragment count. -/
theorem not_estimate_later_le : ¬∀ (text : List Char) (first later speed : ℤ), 1 ≤ speed → first ≤ later →
    ∀ c d, estimate text first speed = .ok c → estimate text later speed = .ok d → d.inSeconds ≤ c.inSeconds := by
  intro hall
  have hfirst : estimate "< a b c<".toList 0 usualSpeed = .ok ⟨0, 0⟩ := by decide +kernel
  have hlater : estimate "< a b c<".toList 1 usualSpeed = .ok ⟨0, 1⟩ := by decide +kernel
  exact absurd (hall _ 0 1 usualSpeed (by decide) (by decide) _ _ hfirst hlater) (by decide)

theorem cuts_firstBracket : Cuts "< a b c<".toList " a b c<".toList " a b c<".toList := by
  have hfragment : IsFragment ('<' :: ' ' :: ("a b c".toList ++ ['<'])) [] := .mk (by decide) (by decide) (by decide)
  have hstart : Scans "< a b c<".toList [] (['<'] ++ " a b c<".toList ++ []) := .start
  exact .mk hstart hfragment (by decide) (by decide)

/-- The second of two words alone takes no longer than both, and what is left of a fragment behind its first bracket no
longer than its words. -/
theorem estimate_later_word : (1 : ℤ) ≤ usualSpeed ∧ (0 : ℤ) ≤ 2 ∧ (0 : ℤ) ≤ 1 ∧
    (Scans ("a b".toList.drop (0 : ℤ).toNat) ['a', ' '] ("a b".toList.drop (2 : ℤ).toNat) ∧
      "a b".toList.length < 2 ^ 63 ∧ ∃ c d, estimate "a b".toList 0 usualSpeed = .ok c ∧
        estimate "a b".toList 2 usualSpeed = .ok d ∧ d.inSeconds ≤ c.inSeconds) ∧
    Cuts ("< a b c<".toList.drop (0 : ℤ).toNat) ("< a b c<".toList.drop (1 : ℤ).toNat) " a b c<".toList ∧
      "< a b c<".toList.length < 2 ^ 63 ∧ wordCount "< a b c<".toList = 0 ∧ (words " a b c<".toList).length = 3 ∧
        ∃ c d, clock Float (0 + 3 : ℕ) usualSpeed = .ok c ∧ estimate "< a b c<".toList 1 usualSpeed = .ok d ∧
          d.inSeconds ≤ c.inSeconds := by
  have hspeed : (1 : ℤ) ≤ usualSpeed := by decide
  have hscan : Scans ("a b".toList.drop (0 : ℤ).toNat) ['a', ' '] ("a b".toList.drop (2 : ℤ).toNat) := by
    have hstart : Scans "a b".toList [] ['a', ' ', 'b'] := .start
    exact (hstart.keep (noFragment_of_ne (by decide) _)).keep (noFragment_of_ne (by decide) _)
  obtain ⟨-, hreached, -, hall⟩ := estimate_later "a b".toList hspeed (show (0 : ℤ) ≤ 2 by decide)
  obtain ⟨-, -, hwithin, hcuts⟩ := estimate_later "< a b c<".toList hspeed (show (0 : ℤ) ≤ 1 by decide)
  refine ⟨hspeed, by decide, by decide, ⟨hscan, by decide, ?_⟩, cuts_firstBracket, by decide, by decide +kernel,
    by decide +kernel, ?_⟩
  · obtain ⟨⟨c, hc⟩, -⟩ := hall (by decide)
    obtain ⟨d, hd, hle⟩ := hreached _ hscan c hc
    exact ⟨c, d, hc, hd, hle⟩
  · obtain ⟨-, -, hwords⟩ := hcuts (by decide)
    obtain ⟨c, hc⟩ := hwords _ cuts_firstBracket
    obtain ⟨d, hd, hle⟩ := hwithin _ cuts_firstBracket c hc
    exact ⟨c, d, hc, hd, hle⟩

end CommentGrade.ReadingTime
