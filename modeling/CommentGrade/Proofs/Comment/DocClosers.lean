import CommentGrade.Language.Registry
import CommentGrade.Proofs.Comment.Runs

/-!
# Doc blocks and their closers

A doc block ends at the first closer behind its opener. The last star of an opener may be the first character of a
closer: a slash behind the two stars makes an empty comment of them, and the block then goes on behind its end, through
what is no comment any more. This is the only way in which a doc block runs past a closer.
-/
namespace CommentGrade.Comment

open Text

section Hits

variable {cs : List Char} {o : Nat} {hit : BlockHit}

theorem occursAt_docCloser_iff (hopener : occursAt false (exactly "/**".toList) cs o = true) :
    occursAt false (exactly "*/".toList) cs (o + 2) = true ↔ occursAt false (exactly "/**/".toList) cs o = true := by
  have hcloser : exactly "*/".toList = exactly "*".toList ++ exactly "/".toList := rfl
  have hunit : exactly "/**".toList = exactly "/*".toList ++ exactly "*".toList := rfl
  have hempty : exactly "/**/".toList = exactly "/**".toList ++ exactly "/".toList := rfl
  have hstar : occursAt false (exactly "*".toList) cs (o + 2) = true := by
    rw [hunit, occursAt_append, Bool.and_eq_true] at hopener
    exact hopener.2
  rw [hcloser, hempty, occursAt_append, occursAt_append, hstar, hopener]
  rfl

theorem occursAt_empty_of_units (hunit : occursAt false (exactly "/**".toList) cs o = true)
    (hnext : occursAt false (exactly "/**".toList) cs (o + 3) = true) :
    occursAt false (exactly "/**/".toList) cs o = true := by
  have hempty : exactly "/**/".toList = exactly "/**".toList ++ exactly "/".toList := rfl
  have hsplit : exactly "/**".toList = exactly "/".toList ++ exactly "**".toList := rfl
  have hslash : occursAt false (exactly "/".toList) cs (o + 3) = true := by
    rw [hsplit, occursAt_append, Bool.and_eq_true] at hnext
    exact hnext.1
  rw [hempty, occursAt_append, hunit]
  exact hslash

/-- A doc block opens with a unit, and its text is all there is before the first closer behind the opener. -/
theorem doc_of_mem (h : hit ∈ BlockForm.doc.blockHits cs) :
    occursAt false (exactly "/**".toList) cs hit.opener = true ∧ hit.opener + 3 ≤ hit.body ∧ hit.body ≤ hit.closer ∧
      (∀ j, hit.body ≤ j → j < hit.closer → occursAt false (exactly "*/".toList) cs j = false) ∧
      (occursAt false (exactly "/**/".toList) cs hit.opener = false → hit.body = hit.opener + 3) := by
  have hne : BlockForm.doc.unit ≠ [] := by decide
  have hlength : BlockForm.doc.unit.length = 3 := rfl
  have hblock := BlockForm.blockAt?_of_mem hne h
  have hle := (BlockForm.blockAt?_bounds hne hblock).2.2.2.1
  have hone : BlockForm.doc.Opens cs hit.opener :=
    (BlockForm.isSome_blockAt?_iff hne).mp (Option.isSome_of_mem hblock)
  obtain ⟨k, hpos, hbody, -⟩ := BlockForm.exists_copies_of_blockAt? hne hblock
  have hfirst := (BlockForm.closer?_eq_some_iff.mp (BlockForm.closer?_of_blockAt? hblock)).2.2.2
  rw [hlength] at hbody
  refine ⟨hone.1, by omega, hle, hfirst, ?_⟩
  intro hslash
  have hnext : ¬ BlockForm.doc.Opens cs (hit.opener + 3) := by
    intro hmore
    rw [occursAt_empty_of_units hone.1 hmore.1] at hslash
    cases hslash
  rw [BlockForm.blockAt?_of_single hne hone hnext] at hblock
  obtain ⟨e, -, hhit⟩ := Option.map_eq_some_iff.mp hblock
  exact (congrArg BlockHit.body hhit).symm

/-- A doc block runs past a closer exactly if its opener is an empty comment, the closer being that of this comment. -/
theorem overruns_iff (h : hit ∈ BlockForm.doc.blockHits cs) :
    (∃ j, hit.opener + 2 ≤ j ∧ j < hit.closer ∧ occursAt false (exactly "*/".toList) cs j = true) ↔
      occursAt false (exactly "/**/".toList) cs hit.opener = true := by
  obtain ⟨hunit, hbody, hle, hfirst, hsingle⟩ := doc_of_mem h
  constructor
  · intro hpast
    obtain ⟨j, hj, hlt, hcloser⟩ := hpast
    by_contra hslash
    have hthree := hsingle (Bool.not_eq_true _ ▸ hslash)
    rcases Nat.lt_or_eq_of_le hj with hj | rfl
    · have hnone := hfirst j (by omega) hlt
      rw [hnone] at hcloser
      cases hcloser
    · exact hslash ((occursAt_docCloser_iff hunit).mp hcloser)
  · intro hslash
    exact ⟨hit.opener + 2, Nat.le_refl _, by omega, (occursAt_docCloser_iff hunit).mpr hslash⟩

end Hits

/-- The doc blocks of a profile are the hits of the scan for them. A closer that begins behind the slash and the star of
the opener and before the end of the block is there exactly if the opener goes on with a slash, as an empty comment. -/
theorem extract_doc_overruns_iff (profile : Profile) (scope : Scope) (cs : List Char) (hs : profile.supported = true)
    (hdoc : profile.docBlocks = true) (hscope : scope.docBlocks = true) :
    let hits := BlockForm.doc.blockHits cs
    extractOf .doc profile scope cs = hits.filterMap (BlockHit.comment? .doc cs) ∧
      ∀ h ∈ hits, ∀ c, h.comment? .doc cs = some c →
        occursAt false (exactly "/**".toList) cs h.opener = true ∧ h.opener + 3 ≤ c.start ∧
          ((∃ j, h.opener + 2 ≤ j ∧ j < c.stop ∧ occursAt false (exactly "*/".toList) cs j = true) ↔
            occursAt false (exactly "/**/".toList) cs h.opener = true) := by
  intro hits
  constructor
  · rw [extractOf_doc hs, hdoc, hscope]
    rfl
  · intro h hmem c hc
    obtain ⟨hunit, hbody, -⟩ := doc_of_mem hmem
    obtain ⟨-, rfl⟩ := ofRange?_eq_some_iff.mp hc
    exact ⟨hunit, hbody, overruns_iff hmem⟩

/-- The first block ends where its comment ends, the second one goes on behind an empty comment. -/
theorem extract_doc_overruns_iff_second :
    let profile := Language.profileFor "javascript" false
    let cs := "/** a */ b\n/**/ c */".toList
    profile.supported = true ∧ profile.docBlocks = true ∧
      extractOf .doc profile {} cs = [⟨.doc, 3, 6, 0, " a "⟩, ⟨.doc, 14, 18, 1, "/ c "⟩] ∧
      (¬ ∃ j, 2 ≤ j ∧ j < 6 ∧ occursAt false (exactly "*/".toList) cs j = true) ∧
      ∃ j, 13 ≤ j ∧ j < 18 ∧ occursAt false (exactly "*/".toList) cs j = true := by
  intro profile cs
  obtain ⟨hfound, hpast⟩ := extract_doc_overruns_iff profile {} cs rfl rfl rfl
  have hfirst := (hpast ⟨0, 0, 3, 6⟩ (by decide +kernel) _ rfl).2.2
  have hsecond := (hpast ⟨11, 11, 14, 18⟩ (by decide +kernel) _ rfl).2.2
  refine ⟨rfl, rfl, hfound.trans (by decide +kernel), ?_, hsecond.mpr (by decide +kernel)⟩
  exact fun h => absurd (hfirst.mp h) (by decide +kernel)

/-- A doc block that has the end of the comment it opens before its own. -/
theorem doc_overruns_empty :
    ¬ ∀ (profile : Profile) (scope : Scope) (cs : List Char), profile.supported = true → profile.docBlocks = true →
      ∀ h ∈ BlockForm.doc.blockHits cs, ∀ c ∈ extractOf .doc profile scope cs, h.comment? .doc cs = some c →
        ∀ j, h.opener + 2 ≤ j → j < c.stop → occursAt false (exactly "*/".toList) cs j = false := by
  intro h
  have hpast := h (Language.profileFor "javascript" false) {} "/**/ a */".toList rfl rfl ⟨0, 0, 3, 7⟩ (by decide +kernel)
    ⟨.doc, 3, 7, 0, "/ a "⟩ (by decide +kernel) (by decide +kernel) 2 (by decide) (by decide)
  exact absurd hpast (by decide +kernel)

end CommentGrade.Comment
