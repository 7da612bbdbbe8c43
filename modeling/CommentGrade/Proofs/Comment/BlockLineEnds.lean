import CommentGrade.Proofs.Comment.Returns
import CommentGrade.Proofs.Language.Delimiters

/-!
# Blocks and the ends of lines

The opener of a block takes one character of white space behind its delimiter. If a line ends there with a carriage return
and a line feed, it takes the carriage return and leaves the line feed to the text of the block. So a block with nothing
between its delimiters but the end of a line is empty in one text and not in the other. Doc blocks take nothing behind
their delimiter, and all other blocks stay on their lines as well.
-/
namespace CommentGrade.Comment

open Text

/-- A block and its counterpart in the text with carriage returns. The text of the counterpart is empty only if that of
the block is and its opener ends no line. -/
structure Corresponds (cs : List Char) (h h' : BlockHit) : Prop where
  opener_eq : h'.opener = place cs h.opener
  closer_eq : h'.closer = place cs h.closer
  body_lt_iff : h'.body < h'.closer ↔ h.body < h.closer ∨ lineAt cs h.opener < lineAt cs h.body

namespace BlockForm

/-- A unit of the opener whose last character is a line feed stands at an offset. -/
def EndsLine (b : BlockForm) (cs : List Char) (o : Nat) : Prop :=
  occursAt false b.unit cs o = true ∧ cs[o + b.unit.length - 1]? = some '\n'

/-- Further units behind one that ends a line have no closer among them. -/
def Steady (b : BlockForm) (cs : List Char) : Prop :=
  ∀ o, b.EndsLine cs o → ∀ start hit, b.blockAt? cs start (o + b.unit.length) = some hit →
    b.closer? cs (o + b.unit.length) = some hit.closer

/-- A unit is a word without white space and one more character, a carriage return if it may be a line feed; a closer is
a word without white space. -/
structure IsPlain (b : BlockForm) (w : List Char) (s : CharSet) : Prop where
  unit_eq : b.unit = exactly w ++ [s]
  word_ne_nil : w ≠ []
  word_notBlank : ∀ c ∈ w, isBlank c = false
  closer_ne_nil : b.closer ≠ []
  closer_notBlank : ∀ c ∈ b.closer, isBlank c = false
  last : s.contains false '\r' = s.contains false '\n'

namespace IsPlain

variable {b : BlockForm} {w : List Char} {s : CharSet} (hb : b.IsPlain w s) {cs : List Char} {i j o : Nat}
include hb

theorem unit_ne_nil : b.unit ≠ [] := by simp [hb.unit_eq]

theorem unit_length : b.unit.length = w.length + 1 := by simp [hb.unit_eq]

theorem occursAt_unit (cs : List Char) (o : Nat) : occursAt false b.unit cs o =
    (occursAt false (exactly w) cs o && cs[o + w.length]?.any (s.contains false)) := by
  simp [hb.unit_eq, occursAt_append]

theorem endsLine_iff : b.EndsLine cs o ↔ occursAt false b.unit cs o = true ∧ cs[o + w.length]? = some '\n' := by
  rw [EndsLine, hb.unit_length]
  rfl

theorem closer?_withReturns (hij : ∀ k, j ≤ place cs k ↔ i ≤ k) :
    b.closer? (withReturns cs) j = (b.closer? cs i).map (place cs) := by
  have hmono := place_strictMono cs
  have hocc : ∀ k, occursAt false (exactly b.closer) (withReturns cs) (place cs k) =
      occursAt false (exactly b.closer) cs k := occursAt_place hb.closer_notBlank cs
  apply Option.ext
  intro e'
  rw [Option.map_eq_some_iff]
  simp only [closer?_eq_some_iff]
  constructor
  · intro h
    obtain ⟨hcloser, hle, hlen, hfirst⟩ := h
    obtain ⟨e, rfl, he⟩ := (occursAt_withReturns_iff hb.closer_notBlank hb.closer_ne_nil).mp hcloser
    refine ⟨e, ⟨he, (hij e).mp hle, place_le_length_iff.mp hlen, ?_⟩, rfl⟩
    intro k hik hke
    rw [← hocc]
    exact hfirst _ ((hij k).mpr hik) (hmono hke)
  · intro h
    obtain ⟨e, ⟨he, hle, hlen, hfirst⟩, rfl⟩ := h
    refine ⟨(hocc e).trans he, (hij e).mpr hle, place_le_length_iff.mpr hlen, ?_⟩
    intro k' hjk hke
    rw [← Bool.not_eq_true]
    intro hcloser
    obtain ⟨k, rfl, hk⟩ := (occursAt_withReturns_iff hb.closer_notBlank hb.closer_ne_nil).mp hcloser
    rw [hfirst k ((hij k).mp hjk) (hmono.lt_iff_lt.mp hke)] at hk
    cases hk

theorem closer?_behind (cs : List Char) (i : Nat) :
    b.closer? (withReturns cs) (place cs i + 1) = (b.closer? cs (i + 1)).map (place cs) :=
  hb.closer?_withReturns fun _ => (place_strictMono cs).lt_iff_lt

theorem add_unit (o : Nat) : o + b.unit.length = o + w.length + 1 := by
  rw [hb.unit_length]
  rfl

theorem place_add_unit (h : occursAt false b.unit cs o = true) :
    place cs o + b.unit.length = place cs (o + w.length) + 1 := by
  rw [hb.occursAt_unit, Bool.and_eq_true] at h
  rw [hb.add_unit, place_add_of_occursAt hb.word_notBlank h.1]

theorem lineAt_add_word (h : occursAt false b.unit cs o = true) : lineAt cs (o + w.length) = lineAt cs o := by
  rw [hb.occursAt_unit, Bool.and_eq_true] at h
  have hplace := place_add_of_occursAt hb.word_notBlank h.1
  simp only [place] at hplace
  omega

theorem occursAt_unit_place (cs : List Char) (o : Nat) :
    occursAt false b.unit (withReturns cs) (place cs o) = occursAt false b.unit cs o := by
  rw [hb.occursAt_unit, hb.occursAt_unit, occursAt_place hb.word_notBlank]
  cases hocc : occursAt false (exactly w) cs o with
  | false => rfl
  | true => rw [← place_add_of_occursAt hb.word_notBlank hocc, any_place hb.last]

theorem opens_place_iff : b.Opens (withReturns cs) (place cs o) ↔ b.Opens cs o := by
  rw [Opens, Opens, hb.occursAt_unit_place]
  apply and_congr_right
  intro hocc
  rw [hb.place_add_unit hocc, isClosed, isClosed, hb.closer?_behind, Option.isSome_map, hb.add_unit]

theorem not_opens_behind (h : cs[i]? = some '\n') : ¬ b.Opens (withReturns cs) (place cs i + 1) := by
  intro hopens
  have hblank : (withReturns cs)[place cs i + 1]?.any isBlank = true := by
    rw [getElem?_place_add_one h]
    decide
  have hpos := List.length_pos_iff.mpr hb.word_ne_nil
  have hocc := hopens.1
  rw [hb.occursAt_unit, occursAt_eq_false_of_blank hb.word_notBlank hblank (Nat.le_refl _) (by omega)] at hocc
  cases hocc

theorem rel_of_single {start start' : Nat} (hone : b.Opens cs o) (hnext : ¬ b.Opens cs (o + b.unit.length)) :
    Option.Rel (Corresponds cs) (b.blockAt? cs start o) (b.blockAt? (withReturns cs) start' (place cs o)) := by
  have hunit := hb.unit_ne_nil
  have hone' := hb.opens_place_iff.mpr hone
  have hend := hb.place_add_unit hone.1
  have hnext' : ¬ b.Opens (withReturns cs) (place cs o + b.unit.length) := by
    rw [hend]
    by_cases hfeed : cs[o + w.length]? = some '\n'
    · exact hb.not_opens_behind hfeed
    · rw [← place_succ_of_ne hfeed, hb.opens_place_iff, ← hb.add_unit]
      exact hnext
  rw [blockAt?_of_single hunit hone hnext, blockAt?_of_single hunit hone' hnext', hend, hb.add_unit, hb.closer?_behind]
  cases he : b.closer? cs (o + w.length + 1) with
  | none => exact .none
  | some e =>
    have hle := (closer?_eq_some_iff.mp he).2.1
    refine .some ⟨rfl, rfl, ?_⟩
    rw [← hb.lineAt_add_word hone.1]
    exact place_add_one_lt_iff hle

/-- If the first unit of an opener ends a line, it is the only one of the counterpart, and the others are text there. -/
theorem rel_of_feed (hsteady : b.Steady cs) {start start' : Nat} (hone : b.Opens cs o)
    (hnext : b.Opens cs (o + b.unit.length)) (hfeed : cs[o + w.length]? = some '\n') :
    Option.Rel (Corresponds cs) (b.blockAt? cs start o) (b.blockAt? (withReturns cs) start' (place cs o)) := by
  have hunit := hb.unit_ne_nil
  have hone' := hb.opens_place_iff.mpr hone
  have hend := hb.place_add_unit hone.1
  have hlast := hb.add_unit o
  have hnext' : ¬ b.Opens (withReturns cs) (place cs o + b.unit.length) := hend ▸ hb.not_opens_behind hfeed
  have hsome : (b.blockAt? cs start (o + b.unit.length)).isSome = true := (isSome_blockAt?_iff hunit).mpr hnext
  obtain ⟨hit, hhit⟩ := Option.isSome_iff_exists.mp hsome
  have hcloser := hsteady o (hb.endsLine_iff.mpr ⟨hone.1, hfeed⟩) start hit hhit
  obtain ⟨-, -, hbody, hle, -⟩ := blockAt?_bounds hunit hhit
  have hline : lineAt cs o < lineAt cs hit.body := by
    calc
      lineAt cs o < lineAt cs (o + b.unit.length) := by
        rw [hlast, lineAt_succ hfeed, if_pos rfl, hb.lineAt_add_word hone.1]
        exact Nat.lt_succ_self _
      _ ≤ lineAt cs hit.body := lineAt_mono (Nat.le_of_lt hbody)
  have hplace : place cs (o + w.length) + 1 < place cs hit.closer :=
    (place_add_one_lt_iff (by omega)).mpr (.inl (by omega))
  rw [blockAt?_of_more hunit hone hnext, hhit, blockAt?_of_single hunit hone' hnext', hend, hb.closer?_behind, ← hlast,
    hcloser]
  exact .some ⟨rfl, rfl, iff_of_true hplace (.inr hline)⟩

theorem rel_blockAt? (hsteady : b.Steady cs) (start start' o : Nat) : Option.Rel (Corresponds cs)
    (b.blockAt? cs start o) (b.blockAt? (withReturns cs) start' (place cs o)) := by
  have hunit := hb.unit_ne_nil
  induction o using units_induction cs hunit with
  | none o hone =>
    have hnone : b.blockAt? cs start o = none := by
      rwa [← isSome_blockAt?_iff hunit, Option.not_isSome_iff_eq_none] at hone
    have hnone' : b.blockAt? (withReturns cs) start' (place cs o) = none := by
      rwa [← hb.opens_place_iff, ← isSome_blockAt?_iff hunit, Option.not_isSome_iff_eq_none] at hone
    rw [hnone, hnone']
    exact .none
  | single o hone hnext => exact hb.rel_of_single hone hnext
  | more o hone hnext ih =>
    by_cases hfeed : cs[o + w.length]? = some '\n'
    · exact hb.rel_of_feed hsteady hone hnext hfeed
    · have hplace : place cs o + b.unit.length = place cs (o + b.unit.length) := by
        rw [hb.place_add_unit hone.1, hb.add_unit, place_succ_of_ne hfeed]
      have hline : lineAt cs (o + b.unit.length) = lineAt cs o := by
        simp only [place] at hplace
        omega
      have hone' := hb.opens_place_iff.mpr hone
      have hnext' : b.Opens (withReturns cs) (place cs o + b.unit.length) := by
        rw [hplace, hb.opens_place_iff]
        exact hnext
      rw [blockAt?_of_more hunit hone hnext, blockAt?_of_more hunit hone' hnext', hplace]
      refine rel_map ih ?_
      intro hit hit' hhit h
      have hopener := (blockAt?_bounds hunit hhit).2.1
      refine ⟨rfl, h.closer_eq, ?_⟩
      rw [h.body_lt_iff, hopener, hline]

theorem rel_blockHit? (hsteady : b.Steady cs) (i : Nat) : Option.Rel (Corresponds cs) (b.blockHit? cs i)
    (b.blockHit? (withReturns cs) (place cs i)) := by
  have hgap : (withReturns cs)[place cs i]?.any isGap = cs[i]?.any isGap := any_place (by decide) cs i
  rw [blockHit?_eq, blockHit?_eq, isLineStart_place, hgap]
  apply rel_or
  · split_ifs
    · exact hb.rel_blockAt? hsteady i (place cs i) i
    · exact .none
  · split_ifs with h
    · have hne : cs[i]? ≠ some '\n' := by
        intro hfeed
        rw [hfeed] at h
        exact absurd h (by decide)
      rw [← place_succ_of_ne hne]
      exact hb.rel_blockAt? hsteady i (place cs i) (i + 1)
    · exact .none

omit hb in
theorem blockHit?_between (h : cs[i]? = some '\n') : b.blockHit? (withReturns cs) (place cs i + 1) = none := by
  rw [blockHit?_eq, isLineStart_place_add_one h, getElem?_place_add_one h]
  rfl

/-- The blocks of the two texts correspond one by one. -/
theorem forall₂_blockHits (hsteady : b.Steady cs) :
    List.Forall₂ (Corresponds cs) (b.blockHits cs) (b.blockHits (withReturns cs)) := by
  change List.Forall₂ _ _ (hitsFrom _ _ _ (place cs 0))
  apply forall₂_hitsFrom (place_lt_succ cs) (fun _ => place_le_length_iff) (hb.rel_blockHit? hsteady)
  · intro i j hlt hj
    obtain ⟨hfeed, rfl⟩ := eq_of_between hlt hj
    exact blockHit?_between hfeed
  · intro i h h' hhit hrel
    obtain ⟨-, -, hopener, hbody, hcloser, -⟩ := blockHit?_bounds hb.unit_ne_nil hhit
    have hblock := blockAt?_of_blockHit? hb.unit_ne_nil hhit
    have hocc := (closer?_eq_some_iff.mp (closer?_of_blockAt? hblock)).1
    rw [stop, stop, hrel.closer_eq, place_add_of_occursAt hb.closer_notBlank hocc]
    exact ⟨by omega, rfl⟩

end IsPlain

end BlockForm

section Lines

variable {cs : List Char} {kind : CommentKind} {hits hits' : List BlockHit}

/-- The lines of what is found at hits. -/
def linesOf (kind : CommentKind) (cs : List Char) (hits : List BlockHit) : List Nat :=
  (hits.filterMap (BlockHit.comment? kind cs)).map (·.line)

theorem linesOf_cons (h : BlockHit) : linesOf kind cs (h :: hits) =
    (if h.body < h.closer then [lineAt cs h.opener] else []) ++ linesOf kind cs hits := by
  rw [linesOf, List.filterMap_cons, BlockHit.comment?, ofRange?]
  split_ifs <;> rfl

theorem linesOf_cons_of_corresponds {h h' : BlockHit} (hrel : Corresponds cs h h') :
    linesOf kind (withReturns cs) (h' :: hits') =
      (if h.body < h.closer ∨ lineAt cs h.opener < lineAt cs h.body then [lineAt cs h.opener] else []) ++
        linesOf kind (withReturns cs) hits' := by
  rw [linesOf_cons, hrel.opener_eq, lineAt_place]
  simp only [hrel.body_lt_iff]

theorem linesOf_sublist (h : List.Forall₂ (Corresponds cs) hits hits') :
    (linesOf kind cs hits).Sublist (linesOf kind (withReturns cs) hits') := by
  induction h with
  | nil => exact List.Sublist.refl []
  | @cons h h' hits hits' hrel _ ih =>
    rw [linesOf_cons_of_corresponds hrel, linesOf_cons]
    apply List.Sublist.append _ ih
    by_cases hbody : h.body < h.closer
    · simp [hbody]
    · simp [hbody]

/-- Nothing is found on another line exactly if each block whose opener ends a line has a text. -/
theorem linesOf_eq_iff (h : List.Forall₂ (Corresponds cs) hits hits') :
    linesOf kind (withReturns cs) hits' = linesOf kind cs hits ↔
      ∀ h ∈ hits, lineAt cs h.opener < lineAt cs h.body → h.body < h.closer := by
  induction h with
  | nil => simp [linesOf]
  | @cons h h' hits hits' hrel hrest ih =>
    have hlater : (linesOf kind cs hits).length ≤ (linesOf kind (withReturns cs) hits').length :=
      (linesOf_sublist hrest).length_le
    rw [linesOf_cons_of_corresponds hrel, linesOf_cons, List.forall_mem_cons, ← ih]
    by_cases hbody : h.body < h.closer
    · simp [hbody]
    · by_cases hends : lineAt cs h.opener < lineAt cs h.body
      · have hne : lineAt cs h.opener :: linesOf kind (withReturns cs) hits' ≠ linesOf kind cs hits := by
          intro heq
          have hlength := congrArg List.length heq
          rw [List.length_cons] at hlength
          omega
        simp [hbody, hends, hne]
      · simp [hbody, hends]

end Lines

section Forms

variable {id : String} {wanted : Bool} {d : Delimiters} {cs : List Char}

theorem isPlain_ofDelimiters (hd : (Language.profileFor id wanted).block = some d) :
    (BlockForm.ofDelimiters d).IsPlain d.opening.toList .space := by
  obtain ⟨⟨hopening, hopeningBlank⟩, hclosing, hclosingBlank⟩ := Language.blockDelimiters_proper hd
  exact ⟨rfl, hopening, hopeningBlank, hclosing, hclosingBlank, by decide⟩

theorem isPlain_doc : BlockForm.doc.IsPlain "/*".toList (.char '*') :=
  ⟨rfl, by decide, isBlank_eq_false_of_mem rfl, by decide, isBlank_eq_false_of_mem rfl, rfl⟩

theorem not_endsLine_doc (cs : List Char) (o : Nat) : ¬ BlockForm.doc.EndsLine cs o := by
  intro h
  obtain ⟨hocc, hfeed⟩ := isPlain_doc.endsLine_iff.mp h
  rw [isPlain_doc.occursAt_unit, hfeed, Bool.and_eq_true] at hocc
  exact absurd hocc.2 (by decide)

theorem steady_doc (cs : List Char) : BlockForm.doc.Steady cs := fun o h => absurd h (not_endsLine_doc cs o)

theorem lineAt_of_copies {sets : List CharSet} {possible : Nat → Bool} {o k : Nat}
    (hsets : ∀ s ∈ sets, s.contains false '\n' = false) (h : Copies sets possible cs o k) :
    lineAt cs (o + k * sets.length) = lineAt cs o := by
  induction k generalizing o with
  | zero => rw [Nat.zero_mul, Nat.add_zero]
  | succ k ih =>
    obtain ⟨hfirst, hrest⟩ := copies_succ_iff.mp h
    calc
      lineAt cs (o + (k + 1) * sets.length) = lineAt cs (o + sets.length + k * sets.length) := by
        rw [Nat.add_mul, Nat.one_mul]
        congr 1
        omega
      _ = lineAt cs (o + sets.length) := ih hrest
      _ = lineAt cs o := lineAt_add_of_occursAt hsets hfirst

theorem lineAt_body_of_doc {h : BlockHit} (hmem : h ∈ BlockForm.doc.blockHits cs) :
    lineAt cs h.body = lineAt cs h.opener := by
  have hunit : BlockForm.doc.unit ≠ [] := by decide
  obtain ⟨k, -, hbody, hcopies⟩ := BlockForm.exists_copies_of_blockAt? hunit (BlockForm.blockAt?_of_mem hunit hmem)
  rw [hbody, lineAt_of_copies (by decide) hcopies]

/-- If no unit that ends a line has another one behind it, nothing is said about further units. -/
theorem steady_of_not_opens {b : BlockForm} (hunit : b.unit ≠ [])
    (h : ∀ o, b.EndsLine cs o → ¬ b.Opens cs (o + b.unit.length)) : b.Steady cs := by
  intro o hends start hit hhit
  have hopens := (BlockForm.isSome_blockAt?_iff hunit).mp (Option.isSome_of_mem hhit)
  exact absurd hopens (h o hends)

/-- With different delimiters, no closer begins within a unit. -/
theorem closer?_behind_unit (hd : (Language.profileFor id wanted).block = some d) (hne : d.opening ≠ d.closing)
    {o : Nat} (hocc : occursAt false (BlockForm.ofDelimiters d).unit cs o = true) : (BlockForm.ofDelimiters d).closer? cs o =
      (BlockForm.ofDelimiters d).closer? cs (o + (BlockForm.ofDelimiters d).unit.length) := by
  have hb := isPlain_ofDelimiters hd
  rw [hb.occursAt_unit, Bool.and_eq_true] at hocc
  obtain ⟨hword, hblank⟩ := hocc
  apply BlockForm.closer?_eq_of_none (Nat.le_add_right _ _)
  intro k hok hk
  rw [hb.unit_length] at hk
  by_cases hlen : k + d.closing.toList.length ≤ o + d.opening.toList.length
  · rw [← Bool.not_eq_true]
    intro hcloser
    exact hne (Language.opening_eq_of_part hd (infix_of_occursAt hword hcloser hok hlen))
  · exact occursAt_eq_false_of_blank hb.closer_notBlank hblank (by omega) (Nat.not_le.mp hlen)

theorem steady_of_ne (hd : (Language.profileFor id wanted).block = some d) (hne : d.opening ≠ d.closing)
    (cs : List Char) : (BlockForm.ofDelimiters d).Steady cs := by
  have hunit := ofDelimiters_unit_ne_nil d
  have hfirst : ∀ start o hit, (BlockForm.ofDelimiters d).blockAt? cs start o = some hit →
      (BlockForm.ofDelimiters d).closer? cs o = some hit.closer := by
    intro start o
    induction o using BlockForm.units_induction cs hunit with
    | none o hone =>
      intro hit h
      exact absurd ((BlockForm.isSome_blockAt?_iff hunit).mp (Option.isSome_of_mem h)) hone
    | single o hone hnext =>
      intro hit h
      rw [BlockForm.blockAt?_of_single hunit hone hnext] at h
      obtain ⟨e, he, rfl⟩ := Option.map_eq_some_iff.mp h
      rw [closer?_behind_unit hd hne hone.1, he]
    | more o hone hnext ih =>
      intro hit h
      rw [BlockForm.blockAt?_of_more hunit hone hnext] at h
      obtain ⟨later, hlater, rfl⟩ := Option.map_eq_some_iff.mp h
      rw [closer?_behind_unit hd hne hone.1, ih later hlater]
  intro o _ start hit h
  exact hfirst start _ hit h

end Forms

section Extraction

variable {id : String} {wanted : Bool} {d : Delimiters} {profile : Profile}

theorem lines_doc_withReturns (hs : profile.supported = true) (scope : Scope) (cs : List Char) :
    (extractOf .doc profile scope (withReturns cs)).map (·.line) = (extractOf .doc profile scope cs).map (·.line) := by
  rw [extractOf_doc hs, extractOf_doc hs]
  split_ifs
  · apply (linesOf_eq_iff (isPlain_doc.forall₂_blockHits (steady_doc cs))).mpr
    intro h hmem hlt
    rw [lineAt_body_of_doc hmem] at hlt
    exact absurd hlt (Nat.lt_irrefl _)
  · rfl

theorem lines_block_withReturns (hd : (Language.profileFor id wanted).block = some d) (scope : Scope) {cs : List Char}
    (hsteady : (BlockForm.ofDelimiters d).Steady cs) :
    let lines := fun cs => (extractOf .block (Language.profileFor id wanted) scope cs).map (·.line)
    (lines cs).Sublist (lines (withReturns cs)) ∧ (lines (withReturns cs) = lines cs ↔ (scope.blocks = true →
      ∀ h ∈ (BlockForm.ofDelimiters d).blockHits cs, lineAt cs h.opener < lineAt cs h.body → h.body < h.closer)) := by
  intro lines
  have hs := Language.supported_of_block hd
  have hrel := (isPlain_ofDelimiters hd).forall₂_blockHits hsteady
  simp only [lines, extractOf_block hs hd]
  cases scope.blocks with
  | true =>
    simp only [if_true, forall_const]
    exact ⟨linesOf_sublist hrel, linesOf_eq_iff hrel⟩
  | false => simp

theorem extractOf_of_unsupported (hs : profile.supported = false) (kind : CommentKind) (scope : Scope)
    (cs : List Char) : extractOf kind profile scope cs = [] := by
  simp [extractOf, extract, hs]

theorem extractOf_block_of_none (hd : profile.block = none) (scope : Scope) (cs : List Char) :
    extractOf .block profile scope cs = [] := by
  cases hs : profile.supported with
  | false => exact extractOf_of_unsupported hs .block scope cs
  | true => simp [extractOf, extract_filter_kind hs, runOf, Patterns.ofProfile, hs, hd]

end Extraction

/-- With a carriage return before each line feed, doc blocks are found on the same lines. Blocks keep their lines and their
order, and no others come in between exactly if each block whose opener ends a line has a text. With equal delimiters this
is said of texts in which no unit that ends a line has another one behind it. -/
theorem extract_blocks_withReturns (id : String) (wanted : Bool) (scope : Scope) (cs : List Char) :
    let profile := Language.profileFor id wanted
    let lines := fun kind cs => (extractOf kind profile scope cs).map (·.line)
    lines .doc (withReturns cs) = lines .doc cs ∧
    (profile.block = none → lines .block (withReturns cs) = lines .block cs) ∧
    ∀ d, profile.block = some d →
      let b := BlockForm.ofDelimiters d
      (d.opening ≠ d.closing ∨ ∀ o, b.EndsLine cs o → ¬ b.Opens cs (o + b.unit.length)) →
        (lines .block cs).Sublist (lines .block (withReturns cs)) ∧
        (lines .block (withReturns cs) = lines .block cs ↔ (scope.blocks = true →
          ∀ h ∈ b.blockHits cs, lineAt cs h.opener < lineAt cs h.body → h.body < h.closer)) := by
  intro profile lines
  refine ⟨?_, ?_, ?_⟩
  · cases hs : profile.supported with
    | false => simp only [lines, extractOf_of_unsupported hs]
    | true => exact lines_doc_withReturns hs scope cs
  · intro hd
    simp only [lines, extractOf_block_of_none hd]
  · intro d hd b hunits
    apply lines_block_withReturns hd scope
    rcases hunits with hne | hsingle
    · exact steady_of_ne hd hne cs
    · exact steady_of_not_opens (ofDelimiters_unit_ne_nil d) hsingle

/-- A block with a text, and one that is empty until a line feed is left to it. -/
theorem extract_blocks_withReturns_empty :
    let profile := Language.profileFor "c" false
    let b := BlockForm.ofDelimiters ⟨"/*", "*/"⟩
    let lines := fun cs => (extractOf .block profile {} cs).map (·.line)
    let cs := "a\n/*\n b\n*/".toList
    profile.block = some ⟨"/*", "*/"⟩ ∧ "/*" ≠ "*/" ∧ withReturns cs = "a\r\n/*\r\n b\r\n*/".toList ∧ lines cs = [1] ∧
      (∀ h ∈ b.blockHits cs, lineAt cs h.opener < lineAt cs h.body → h.body < h.closer) ∧
      lines (withReturns cs) = lines cs ∧
      ¬ ∀ h ∈ b.blockHits "/*\n*/".toList, lineAt "/*\n*/".toList h.opener < lineAt "/*\n*/".toList h.body →
        h.body < h.closer := by
  intro profile b lines cs
  have htext : ∀ h ∈ b.blockHits cs, lineAt cs h.opener < lineAt cs h.body → h.body < h.closer := by decide +kernel
  have hlines := ((extract_blocks_withReturns "c" false {} cs).2.2 ⟨"/*", "*/"⟩ rfl (.inl (by decide))).2
  exact ⟨rfl, by decide, by decide, by decide +kernel, htext, hlines.mpr fun _ => htext, by decide +kernel⟩

/-- A block that is found only where a carriage return comes before the line feed. -/
theorem block_of_line_feed :
    ¬ ∀ (id : String) (wanted : Bool) (scope : Scope) (cs : List Char), '\r' ∉ cs →
      (extractOf .block (Language.profileFor id wanted) scope (withReturns cs)).map (·.line) =
        (extractOf .block (Language.profileFor id wanted) scope cs).map (·.line) := by
  intro h
  have hlines := h "c" false {} "/*\n*/".toList (by decide)
  exact absurd hlines (by decide +kernel)

end CommentGrade.Comment
