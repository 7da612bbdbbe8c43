import CommentGrade.Proofs.Comment.Locality
import Mathlib.Data.List.Forall2

/-!
# Tags and comments

Tags do not find comments. A line comment with tags is one without, less the tags at its front: the first tag of the
list that the text begins with is dropped, as often as there is one. A comment that is nothing but tags is dropped as a
whole. What is looked for behind it stays the same, since a tag without an end of a line does not lead over one.
-/
namespace CommentGrade.Comment

open Text

/-- A text is a word up to case. -/
def SameLetters (w cs : List Char) : Prop := List.Forall₂ (fun c d => caselessEq c d = true) w cs

theorem SameLetters.length_eq {w cs : List Char} (h : SameLetters w cs) : w.length = cs.length :=
  List.Forall₂.length_eq h

/-- The rest of a text that begins with a word, whatever the case. -/
def dropWord? : List Char → List Char → Option (List Char)
  | [], cs => some cs
  | _ :: _, [] => none
  | c :: w, d :: cs => if caselessEq c d then dropWord? w cs else none

/-- The rest of a text behind the first tag that it begins with. -/
def dropTag? (tags : List String) (cs : List Char) : Option (List Char) :=
  (tags.filter (· != "")).findSome? fun t => dropWord? t.toList cs

theorem dropWord?_eq_some_iff {w cs rest : List Char} : dropWord? w cs = some rest ↔
    ∃ front, cs = front ++ rest ∧ SameLetters w front := by
  induction w generalizing cs with
  | nil =>
    simp only [dropWord?, SameLetters, Option.some.injEq, List.forall₂_nil_left_iff, exists_eq_right, List.nil_append]
  | cons c w ih =>
    cases cs with
    | nil => simp [dropWord?, SameLetters, List.forall₂_cons_left_iff]
    | cons d cs =>
      rw [dropWord?, Option.ite_none_right_eq_some, ih]
      constructor
      · rintro ⟨hcd, front, rfl, hfront⟩
        exact ⟨d :: front, rfl, .cons hcd hfront⟩
      · rintro ⟨front, hsplit, hfront⟩
        obtain ⟨e, front, hce, hrest, rfl⟩ := List.forall₂_cons_left_iff.mp hfront
        obtain ⟨rfl, rfl⟩ := List.cons.inj hsplit
        exact ⟨hce, front, rfl, hrest⟩

theorem dropTag?_eq_some {tags : List String} {cs rest : List Char} (h : dropTag? tags cs = some rest) :
    ∃ t ∈ tags, t ≠ "" ∧ dropWord? t.toList cs = some rest := by
  obtain ⟨t, ht, hdrop⟩ := List.exists_of_findSome?_eq_some h
  obtain ⟨hmem, hne⟩ := List.mem_filter.mp ht
  exact ⟨t, hmem, by simpa using hne, hdrop⟩

theorem dropTag?_length_lt {tags : List String} {cs rest : List Char} (h : dropTag? tags cs = some rest) :
    rest.length < cs.length := by
  obtain ⟨t, -, hne, hdrop⟩ := dropTag?_eq_some h
  obtain ⟨front, rfl, hfront⟩ := dropWord?_eq_some_iff.mp hdrop
  have hlength : t.toList.length = front.length := hfront.length_eq
  have hpos : 0 < t.toList.length := List.length_pos_iff.mpr (by simpa using hne)
  rw [List.length_append]
  omega

/-- The rest of a text behind all the tags at its front. -/
def dropTags (tags : List String) (cs : List Char) : List Char :=
  match h : dropTag? tags cs with
  | some rest =>
    have := dropTag?_length_lt h
    dropTags tags rest
  | none => cs
termination_by cs.length

/-- What is left of a comment without the tags at its front, if anything is. -/
def withoutTags? (tags : List String) (c : Comment) : Option Comment :=
  let rest := dropTags tags c.text.toList
  if rest = [] then none else some { c with start := c.stop - rest.length, text := String.ofList rest }

/-- Texts that consist of words of a list, whatever the case. -/
inductive MadeOf (tags : List String) : List Char → Prop where
  | nil : MadeOf tags []
  | cons {t : String} {word rest : List Char} : t ∈ tags → t ≠ "" → SameLetters t.toList word →
      MadeOf tags rest → MadeOf tags (word ++ rest)

section Front

variable {tags : List String} {cs rest : List Char}

theorem dropTags_of_none (h : dropTag? tags cs = none) : dropTags tags cs = cs := by
  rw [dropTags]
  split
  next rest hrest => rw [h] at hrest; cases hrest
  next => rfl

theorem dropTags_of_some (h : dropTag? tags cs = some rest) : dropTags tags cs = dropTags tags rest := by
  rw [dropTags]
  split
  next rest' hrest => rw [h] at hrest; cases hrest; rfl
  next hnone => rw [h] at hnone; cases hnone

/-- What is dropped is made of tags, and no tag is left in front. -/
theorem dropTags_spec (tags : List String) (cs : List Char) :
    (∃ front, cs = front ++ dropTags tags cs ∧ MadeOf tags front) ∧ dropTag? tags (dropTags tags cs) = none := by
  induction cs using dropTags.induct tags with
  | case1 cs rest hrest _ ih =>
    obtain ⟨⟨front, hsplit, hfront⟩, hnone⟩ := ih
    obtain ⟨t, ht, hne, hdrop⟩ := dropTag?_eq_some hrest
    obtain ⟨word, rfl, hword⟩ := dropWord?_eq_some_iff.mp hdrop
    rw [dropTags_of_some hrest]
    refine ⟨⟨word ++ front, ?_, .cons ht hne hword hfront⟩, hnone⟩
    rw [List.append_assoc, ← hsplit]
  | case2 cs hnone =>
    rw [dropTags_of_none hnone]
    exact ⟨⟨[], rfl, .nil⟩, hnone⟩

theorem dropWord?_takeWhile {w : List Char} (hw : '\r' ∉ w ∧ '\n' ∉ w) (cs : List Char) :
    dropWord? w (cs.takeWhile isInLine) = (dropWord? w cs).map (List.takeWhile isInLine) := by
  induction w generalizing cs with
  | nil => rfl
  | cons c w ih =>
    simp only [List.mem_cons, not_or] at hw
    obtain ⟨⟨hr, hrs⟩, hn, hns⟩ := hw
    cases cs with
    | nil => rfl
    | cons d cs =>
      cases hd : isInLine d with
      | true =>
        rw [List.takeWhile_cons_of_pos hd, dropWord?, dropWord?, ih ⟨hrs, hns⟩]
        split_ifs <;> rfl
      | false =>
        have hcase : caselessEq c d = false := by
          rw [caselessEq_comm, ← Bool.not_eq_true]
          rcases isInLine_eq_false_iff.mp hd with rfl | rfl
          · rw [caselessEq_iff_of_lt (by decide)]
            exact Ne.symm hr
          · rw [caselessEq_iff_of_lt (by decide)]
            exact Ne.symm hn
        have hline : (d :: cs).takeWhile isInLine = [] := by rw [List.takeWhile_cons, hd]; rfl
        rw [hline, dropWord?, dropWord?, hcase]
        rfl

variable (htags : ∀ t ∈ tags, '\r' ∉ t.toList ∧ '\n' ∉ t.toList)
include htags

theorem dropTag?_takeWhile (cs : List Char) :
    dropTag? tags (cs.takeWhile isInLine) = (dropTag? tags cs).map (List.takeWhile isInLine) := by
  rw [dropTag?, dropTag?, List.map_findSome?]
  apply findSome?_congr
  intro t ht
  exact dropWord?_takeWhile (htags t (List.mem_filter.mp ht).1) cs

theorem dropTags_takeWhile (cs : List Char) :
    dropTags tags (cs.takeWhile isInLine) = (dropTags tags cs).takeWhile isInLine := by
  induction cs using dropTags.induct tags with
  | case1 cs rest hrest _ ih =>
    have hline : dropTag? tags (cs.takeWhile isInLine) = some (rest.takeWhile isInLine) := by
      rw [dropTag?_takeWhile htags, hrest, Option.map_some]
    rw [dropTags_of_some hrest, dropTags_of_some hline, ih]
  | case2 cs hnone =>
    have hline : dropTag? tags (cs.takeWhile isInLine) = none := by
      rw [dropTag?_takeWhile htags, hnone, Option.map_none]
    rw [dropTags_of_none hnone, dropTags_of_none hline]

end Front

section Scan

variable {tags : List String} {cs : List Char} {i j : Nat}

theorem dropWord?_drop (w cs : List Char) (i : Nat) :
    dropWord? w (cs.drop i) = (stepOver true (exactly w) cs i).map (cs.drop ·) := by
  induction w generalizing i with
  | nil => rfl
  | cons c w ih =>
    have hstep := stepOver_cons true (.char c) (exactly w) cs i
    change stepOver true (exactly (c :: w)) cs i = _ at hstep
    rw [hstep]
    cases hrest : cs.drop i with
    | nil =>
      have hnone : cs[i]? = none := by rw [← List.head?_drop, hrest, List.head?_nil]
      rw [hnone]
      rfl
    | cons d rest =>
      have hd : cs[i]? = some d := by rw [← List.head?_drop, hrest, List.head?_cons]
      have htail : cs.drop (i + 1) = rest := by rw [← List.tail_drop, hrest, List.tail_cons]
      rw [dropWord?, ← htail, ih, hd, Option.any_some]
      change _ = Option.map _ (if caselessEq c d = true then _ else _)
      split_ifs <;> rfl

theorem dropTag?_drop (tags : List String) (cs : List Char) (i : Nat) :
    dropTag? tags (cs.drop i) = (firstTag? (tagTexts tags) cs i).map (cs.drop ·) := by
  rw [dropTag?, firstTag?, tagTexts, distinctTags, List.findSome?_map, findSome?_eraseDups, List.map_findSome?]
  simp only [dropWord?_drop]
  rfl

theorem dropTags_drop (tags : List String) (cs : List Char) (i : Nat) :
    dropTags tags (cs.drop i) = cs.drop (farthest cs.length (firstTag? (tagTexts tags) cs) i) := by
  have hstep := advancing_firstTag? tags cs
  induction i using farthest.induct cs.length (firstTag? (tagTexts tags) cs) with
  | case1 i j hj _ ih =>
    have hdrop : dropTag? tags (cs.drop i) = some (cs.drop j) := by rw [dropTag?_drop, hj, Option.map_some]
    rw [dropTags_of_some hdrop, farthest_of_some hstep hj, ih]
  | case2 i j hj hlt => exact absurd (hstep i j hj) hlt
  | case3 i hj =>
    have hdrop : dropTag? tags (cs.drop i) = none := by rw [dropTag?_drop, hj, Option.map_none]
    rw [dropTags_of_none hdrop, farthest_of_none hj]

theorem skip_of_stepOver {w : List Char} (hw : '\r' ∉ w ∧ '\n' ∉ w) (h : stepOver true (exactly w) cs i = some j) :
    skip isInLine cs j = skip isInLine cs i := by
  have hline : dropWord? w ((cs.drop i).takeWhile isInLine) = some ((cs.drop j).takeWhile isInLine) := by
    rw [dropWord?_takeWhile hw, dropWord?_drop, h]
    rfl
  obtain ⟨front, hsplit, hfront⟩ := dropWord?_eq_some_iff.mp hline
  have hlength : w.length = front.length := hfront.length_eq
  simp only [stepOver, Option.ite_none_right_eq_some, Option.some.injEq, exactly_length] at h
  obtain ⟨-, rfl⟩ := h
  rw [skip, skip, hsplit, List.length_append, hlength, Nat.add_assoc]

theorem skip_farthest_firstTag? (htags : ∀ t ∈ tags, '\r' ∉ t.toList ∧ '\n' ∉ t.toList) (cs : List Char) (i : Nat) :
    skip isInLine cs (farthest cs.length (firstTag? (tagTexts tags) cs) i) = skip isInLine cs i := by
  refine farthest_induction (P := fun k => skip isInLine cs k = skip isInLine cs i) ?_ rfl
  intro k l hkl hk
  obtain ⟨t, ht, hstep⟩ := List.exists_of_findSome?_eq_some hkl
  obtain ⟨s, hs, rfl⟩ := exists_of_mem_tagTexts ht
  exact (skip_of_stepOver (htags s hs) hstep).trans hk

/-- A range that leaves out the tags at the front of another one is the comment there without them. -/
theorem ofRange?_behindTags {body body' stop : Nat} (kind : CommentKind) (line : Nat)
    (hlength : body' + (between cs body' stop).length = stop)
    (hrest : between cs body' stop = dropTags tags (between cs body stop)) :
    ofRange? kind cs line body' stop = (ofRange? kind cs line body stop).bind (withoutTags? tags) := by
  have hempty : between cs body' stop = [] ↔ ¬ body' < stop := by
    rw [← List.length_eq_zero_iff]
    omega
  by_cases hlt : body < stop
  · rw [ofRange?, ofRange?, if_pos hlt, Option.bind_some, withoutTags?, String.toList_ofList, ← hrest]
    split_ifs with hbody hnil hnil
    · exact absurd hbody (hempty.mp hnil)
    · have hstart : body' = stop - (between cs body' stop).length := by omega
      rw [← hstart]
    · rfl
    · exact absurd (hempty.mpr hbody) hnil
  · have hnone : between cs body stop = [] := List.drop_eq_nil_of_le (by rw [List.length_take]; omega)
    have hnil : dropTags tags [] = [] := by
      obtain ⟨⟨front, hsplit, -⟩, -⟩ := dropTags_spec tags []
      exact (List.append_eq_nil_iff.mp hsplit.symm).2
    have hbody : ¬ body' < stop := hempty.mp (by rw [hrest, hnone, hnil])
    rw [ofRange?, ofRange?, if_neg hlt, if_neg hbody, Option.bind_none]

/-- The hit with the tags at its front left out. -/
def LineHit.behindTags (tags : List String) (cs : List Char) (hit : LineHit) : LineHit :=
  { hit with body := farthest cs.length (firstTag? (tagTexts tags) cs) hit.body }

variable {head : LineHead} {hit : LineHit} (htags : ∀ t ∈ tags, '\r' ∉ t.toList ∧ '\n' ∉ t.toList)
include htags

theorem lineHit?_tags (head : LineHead) (cs : List Char) (i : Nat) : lineHit? head (tagTexts tags) cs i =
    (lineHit? head [] cs i).map (LineHit.behindTags tags cs) := by
  rw [lineHit?, lineHit?, Option.map_map]
  congr 1
  funext j
  have hbody : farthest cs.length (firstTag? [] cs) j = j := farthest_of_none rfl
  simp only [Function.comp_apply, LineHit.behindTags, hbody, skip_farthest_firstTag? htags]

theorem lineHits_tags (head : LineHead) (cs : List Char) : lineHits head (tagTexts tags) cs =
    (lineHits head [] cs).map (LineHit.behindTags tags cs) := by
  have hhit : lineHit? head (tagTexts tags) cs = fun i => (lineHit? head [] cs i).map (LineHit.behindTags tags cs) :=
    funext (lineHit?_tags htags head cs)
  rw [lineHits, lineHits, hhit]
  exact (hitsFrom_map _ _ _ fun _ => rfl).symm

/-- What is found at a hit with tags is what is found there without them, less the tags. -/
theorem found?_behindTags (skipsFirstLine : Bool) (hstop : hit.stop = skip isInLine cs hit.body) :
    (hit.behindTags tags cs).found? skipsFirstLine cs = (hit.found? skipsFirstLine cs).bind (withoutTags? tags) := by
  obtain ⟨start, body, stop⟩ := hit
  obtain rfl : stop = skip isInLine cs body := hstop
  let body' := farthest cs.length (firstTag? (tagTexts tags) cs) body
  have hskip : skip isInLine cs body' = skip isInLine cs body := skip_farthest_firstTag? htags cs body
  -- the steps over tags do not leave the line, so they drop the same from the line as from the whole rest of the text
  have hrest : between cs body' (skip isInLine cs body) = dropTags tags (between cs body (skip isInLine cs body)) := by
    rw [between_skip, dropTags_takeWhile htags, dropTags_drop, ← hskip, between_skip]
  have hlength : body' + (between cs body' (skip isInLine cs body)).length = skip isInLine cs body := by
    rw [← hskip, between_skip]
    rfl
  have hcomment : LineHit.comment? cs ⟨start, body', skip isInLine cs body⟩ =
      (LineHit.comment? cs ⟨start, body, skip isInLine cs body⟩).bind (withoutTags? tags) :=
    ofRange?_behindTags .line (lineAt cs start) hlength hrest
  rw [LineHit.found?, LineHit.found?, LineHit.behindTags, hcomment]
  split_ifs <;> rfl

theorem lineComments_tags (hhead : head.Proper) (skipsFirstLine : Bool) (cs : List Char) :
    lineComments skipsFirstLine (head.expression tags) cs =
      (lineComments skipsFirstLine (head.expression []) cs).filterMap (withoutTags? tags) := by
  have hbare : tagTexts [] = [] := rfl
  rw [lineComments_eq hhead, lineComments_eq hhead, hbare, lineHits_tags htags, List.filterMap_map,
    List.filterMap_filterMap]
  apply List.filterMap_congr
  intro hit hmem
  obtain ⟨i, -, -, hhit⟩ := exists_of_mem_hitsFrom hmem
  obtain ⟨j, -, rfl⟩ := Option.map_eq_some_iff.mp hhit
  exact found?_behindTags htags skipsFirstLine rfl

end Scan

section Extraction

variable {tags : List String} {profile : Profile} {scope : Scope} {cs : List Char} {c d : Comment}

theorem extractOf_line_tags (hs : profile.supported = true)
    (htags : ∀ t ∈ scope.tags, '\r' ∉ t.toList ∧ '\n' ∉ t.toList) (cs : List Char) :
    extractOf .line profile scope cs =
      (extractOf .line profile { scope with tags := [] } cs).filterMap (withoutTags? scope.tags) := by
  rw [extractOf_line hs, extractOf_line hs]
  cases hhead : LineHead.ofProfile? profile scope.plainText with
  | none => rfl
  | some head => exact lineComments_tags htags (LineHead.proper_of_ofProfile? hhead) profile.skipsFirstLine cs

theorem extractOf_tags_of_ne (hs : profile.supported = true) (scope : Scope) (cs : List Char) {kind : CommentKind}
    (hkind : kind ≠ .line) : extractOf kind profile scope cs = extractOf kind profile { scope with tags := [] } cs := by
  rw [extractOf, extractOf, extract_filter_kind hs, extract_filter_kind hs]
  cases kind with
  | line => exact absurd rfl hkind
  | block => simp only [Patterns.ofProfile, hs, if_true]
  | doc => simp only [Patterns.ofProfile, hs, if_true]

theorem stop_line_of_withoutTags? (h : withoutTags? tags c = some d) : d.stop = c.stop ∧ d.line = c.line := by
  simp only [withoutTags?, Option.ite_none_left_eq_some, Option.some.injEq] at h
  obtain ⟨-, rfl⟩ := h
  exact ⟨rfl, rfl⟩

theorem dropWord?_of_withoutTags? (h : withoutTags? tags c = some d) {t : String} (ht : t ∈ tags) (hne : t ≠ "") :
    dropWord? t.toList d.text.toList = none := by
  simp only [withoutTags?, Option.ite_none_left_eq_some, Option.some.injEq] at h
  obtain ⟨-, rfl⟩ := h
  obtain ⟨-, hnone⟩ := dropTags_spec tags c.text.toList
  rw [dropTag?, List.findSome?_eq_none_iff] at hnone
  rw [String.toList_ofList]
  exact hnone t (List.mem_filter.mpr ⟨ht, by simpa using hne⟩)

/-- A comment is made of tags, or what is left of it begins behind those at its front. -/
theorem withoutTags?_of_wellPlaced (tags : List String) (hplaced : WellPlaced cs c) :
    withoutTags? tags c = none ∧ MadeOf tags c.text.toList ∨
      ∃ front rest, rest ≠ [] ∧ c.text.toList = front ++ rest ∧ MadeOf tags front ∧
        withoutTags? tags c = some { c with start := c.start + front.length, text := String.ofList rest } := by
  obtain ⟨⟨front, hsplit, hfront⟩, -⟩ := dropTags_spec tags c.text.toList
  by_cases hnil : dropTags tags c.text.toList = []
  · left
    rw [hnil, List.append_nil] at hsplit
    exact ⟨if_pos hnil, hsplit ▸ hfront⟩
  · right
    have hlength : c.stop - c.start = front.length + (dropTags tags c.text.toList).length := by
      rw [← List.length_append, ← hsplit, hplaced.text_eq, between, List.length_drop, List.length_take,
        Nat.min_eq_left hplaced.stop_le_length]
    have hlt := hplaced.start_lt_stop
    have hstart : c.stop - (dropTags tags c.text.toList).length = c.start + front.length := by omega
    exact ⟨front, _, hnil, hsplit, hfront, by rw [withoutTags?, if_neg hnil, hstart]⟩

end Extraction

/-- The line comments with tags are those without, less the tags at their fronts. So tags change neither the end nor the
line of a comment, and lose none but those that are made of tags; no comment begins with a tag in the end. The other
comments do not depend on tags. -/
theorem extract_withoutTags (profile : Profile) (scope : Scope) (cs : List Char) (hs : profile.supported = true)
    (htags : ∀ t ∈ scope.tags, '\r' ∉ t.toList ∧ '\n' ∉ t.toList) :
    let found kind := extractOf kind profile scope cs
    let bare kind := extractOf kind profile { scope with tags := [] } cs
    found .line = (bare .line).filterMap (withoutTags? scope.tags) ∧
    ((found .line).map fun c => (c.stop, c.line)).Sublist ((bare .line).map fun c => (c.stop, c.line)) ∧
    (∀ c ∈ bare .line, MadeOf scope.tags c.text.toList ∨
      ∃ front rest, rest ≠ [] ∧ c.text.toList = front ++ rest ∧ MadeOf scope.tags front ∧
        { c with start := c.start + front.length, text := String.ofList rest } ∈ found .line) ∧
    (∀ d ∈ found .line, ∀ t ∈ scope.tags, t ≠ "" → dropWord? t.toList d.text.toList = none) ∧
    found .block = bare .block ∧ found .doc = bare .doc := by
  intro found bare
  have hfound : found .line = (bare .line).filterMap (withoutTags? scope.tags) := extractOf_line_tags hs htags cs
  refine ⟨hfound, ?_, ?_, ?_, extractOf_tags_of_ne hs scope cs (by decide),
    extractOf_tags_of_ne hs scope cs (by decide)⟩
  · rw [hfound]
    refine sublist_map_filterMap ?_ (bare .line)
    intro c d hleft
    obtain ⟨hstop, hline⟩ := stop_line_of_withoutTags? hleft
    rw [hstop, hline]
  · intro c hc
    have hplaced : WellPlaced cs c := wellPlaced_of_mem_line hs hc
    rcases withoutTags?_of_wellPlaced scope.tags hplaced with ⟨-, hmade⟩ | ⟨front, rest, hne, hsplit, hfront, hleft⟩
    · exact .inl hmade
    · refine .inr ⟨front, rest, hne, hsplit, hfront, ?_⟩
      rw [hfound]
      exact List.mem_filterMap.mpr ⟨c, hc, hleft⟩
  · intro d hd t ht hne
    rw [hfound] at hd
    obtain ⟨c, -, hleft⟩ := List.mem_filterMap.mp hd
    exact dropWord?_of_withoutTags? hleft ht hne

/-- Of tags that overlap the first one listed is dropped each time. Behind a blank there is none any more. -/
theorem extract_withoutTags_overlapping :
    let profile := Profile.line "#"
    let scope : Scope := { tags := ["TODO", "TO", ""] }
    profile.supported = true ∧ (∀ t ∈ scope.tags, '\r' ∉ t.toList ∧ '\n' ∉ t.toList) ∧
      extractOf .line profile scope "# TODOto: a\n#todo TO\n#toTODO".toList =
        [⟨.line, 8, 11, 0, ": a"⟩, ⟨.line, 17, 20, 1, " TO"⟩] := by
  intro profile scope
  have htags : ∀ t ∈ scope.tags, '\r' ∉ t.toList ∧ '\n' ∉ t.toList := by decide
  refine ⟨rfl, htags, ?_⟩
  have h := (extract_withoutTags profile scope "# TODOto: a\n#todo TO\n#toTODO".toList rfl htags).1
  exact h.trans (by decide +kernel)

end CommentGrade.Comment
