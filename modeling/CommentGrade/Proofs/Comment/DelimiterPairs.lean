import Mathlib.Data.List.Flatten
import CommentGrade.Proofs.Comment.Runs
import CommentGrade.Proofs.Language.Delimiters
import CommentGrade.Proofs.Text.Occurrences

/-!
# Blocks between equal delimiters

Where a block opens and closes with the same delimiter, nothing but its surroundings tells an opening one from a closing
one. The blocks are what `pairUp` finds that reads the delimiters of a text one after the other: outside a block, one at
the start of a line or behind a blank, with white space behind it, opens a block, and any other is passed over; inside, the
next one closes the block. So each block lies between two neighbours, but these need not be the first and second, third and
fourth and so on, unless no closing delimiter is ever taken for an opening one.
-/
namespace CommentGrade.Comment

open Text

/-- The first member of a list with the second, the third with the fourth and so on. -/
def pairs : List Nat → List (Nat × Nat)
  | a :: b :: rest => (a, b) :: pairs rest
  | _ => []

/-- Whether a delimiter at an offset can open a block. -/
def canOpen (w cs : List Char) (o : Nat) : Bool :=
  (isLineStart cs o || cs[o - 1]?.any isGap) && cs[o + w.length]?.any isBlank

/-- Whether a delimiter is a repetition of the opening one before it. -/
def repeats (w cs : List Char) (a b : Nat) : Bool := b == a + w.length + 1 && cs[b + w.length]?.any isBlank

/-- Reads delimiters from left to right, outside a block or behind its opening delimiter: each block with the last of its
opening delimiters and its closing one. The last delimiter of a text repeats none, since it would leave no closing one. -/
def pairUp (w cs : List Char) : Option Nat → List Nat → List (Nat × Nat)
  | _, [] => []
  | none, a :: rest => pairUp w cs (if canOpen w cs a then some a else none) rest
  | some a, b :: rest =>
    if repeats w cs a b && !rest.isEmpty then pairUp w cs (some b) rest else (a, b) :: pairUp w cs none rest

/-- A pair that is read as one: either its first member can open a block and the second one does not repeat it, or neither
can open a block. -/
def Regular (w cs : List Char) (p : Nat × Nat) : Prop :=
  (canOpen w cs p.1 = true → repeats w cs p.1 p.2 = false) ∧ (canOpen w cs p.1 = false → canOpen w cs p.2 = false)

instance (w cs : List Char) (p : Nat × Nat) : Decidable (Regular w cs p) := inferInstanceAs (Decidable (_ ∧ _))

section Reading

variable {w cs : List Char} {state : Option Nat} {l : List Nat}

/-- Delimiters are paired up in order, and none is in two pairs. -/
theorem pairUp_sublist (w cs : List Char) (state : Option Nat) (l : List Nat) :
    ((pairUp w cs state l).flatMap fun p => [p.1, p.2]).Sublist (state.toList ++ l) := by
  induction l generalizing state with
  | nil => simp [pairUp]
  | cons b rest ih =>
    cases state with
    | none =>
      simp only [pairUp, Option.toList_none, List.nil_append]
      split_ifs
      · exact ih (some b)
      · exact (ih none).cons b
    | some a =>
      simp only [pairUp, Option.toList_some, List.singleton_append]
      split_ifs
      · exact (ih (some b)).cons a
      · simp only [List.flatMap_cons, List.cons_append, List.nil_append]
        exact ((ih none).cons_cons b).cons_cons a

theorem infix_of_mem_pairUp {p : Nat × Nat} (h : p ∈ pairUp w cs state l) : [p.1, p.2] <:+: state.toList ++ l := by
  induction l generalizing state with
  | nil => simp [pairUp] at h
  | cons b rest ih =>
    cases state with
    | none =>
      simp only [pairUp] at h
      split_ifs at h
      · exact ih h
      · exact List.infix_cons (ih h)
    | some a =>
      simp only [pairUp] at h
      split_ifs at h
      · exact List.infix_cons (ih h)
      · rw [List.mem_cons] at h
        rcases h with rfl | h
        · exact List.IsPrefix.isInfix ⟨rest, rfl⟩
        · exact List.infix_cons (List.infix_cons (ih h))

/-- Where each pair is regular, the blocks are among the pairs. -/
theorem mem_pairs_of_regular (hregular : ∀ p ∈ pairs l, Regular w cs p) {p : Nat × Nat} (h : p ∈ pairUp w cs none l) :
    p ∈ pairs l := by
  induction l using pairs.induct with
  | case1 a b rest ih =>
    rw [pairs, List.forall_mem_cons] at hregular
    obtain ⟨hfirst, hrest⟩ := hregular
    rw [pairs, List.mem_cons]
    cases hopen : canOpen w cs a with
    | true =>
      have hnext : repeats w cs a b = false := hfirst.1 hopen
      simp only [pairUp, hopen, if_true, hnext, Bool.false_and, Bool.false_eq_true, if_false, List.mem_cons] at h
      exact h.imp_right (ih hrest)
    | false =>
      have hnext : canOpen w cs b = false := hfirst.2 hopen
      simp only [pairUp, hopen, hnext, Bool.false_eq_true, if_false] at h
      exact .inr (ih hrest h)
  | case2 l hshort =>
    exfalso
    match l, hshort with
    | [], _ => simp [pairUp] at h
    | [a], _ => simp [pairUp] at h
    | a :: b :: rest, hshort => exact hshort a b rest rfl

end Reading

/-- The form of blocks that open and close with the same delimiter. -/
def BlockForm.symmetric (w : List Char) : BlockForm := ⟨exactly w ++ [.space], w⟩

section Scan

variable {w cs : List Char} {i o k : Nat}

@[simp] theorem symmetric_unit_length (w : List Char) : (BlockForm.symmetric w).unit.length = w.length + 1 := by
  simp [BlockForm.symmetric]

theorem symmetric_unit_ne_nil (w : List Char) : (BlockForm.symmetric w).unit ≠ [] := by simp [BlockForm.symmetric]

theorem occursAt_symmetric : occursAt false (BlockForm.symmetric w).unit cs o =
    (occursAt false (exactly w) cs o && cs[o + w.length]?.any isBlank) := by
  have hspace : CharSet.contains false .space = isBlank := rfl
  simp [BlockForm.symmetric, occursAt_append, hspace]

theorem occurs_of_opens (h : (BlockForm.symmetric w).Opens cs o) :
    occursAt false (exactly w) cs o = true ∧ cs[o + w.length]?.any isBlank = true := by
  have hunit := h.1
  rwa [occursAt_symmetric, Bool.and_eq_true] at hunit

theorem canOpen_behind (hw : ∀ c ∈ w, isBlank c = false) (h : occursAt false (exactly w) cs i = true)
    (hk : k < w.length) : canOpen w cs (i + k + 1) = false := by
  have hchar := getElem?_of_occursAt h hk
  have hblank := hw _ (List.getElem_mem hk)
  have hstart : isLineStart cs (i + k + 1) = false := by
    rw [isLineStart_succ hchar, beq_eq_false_iff_ne]
    intro hfeed
    rw [hfeed] at hblank
    exact absurd hblank (by decide)
  have hgap : isGap w[k] = false := by
    rw [← Bool.not_eq_true]
    intro hgap
    rw [isBlank_of_isGap hgap] at hblank
    cases hblank
  simp [canOpen, hstart, hchar, hgap]

theorem occurrencesFrom_of_not_isClosed (h : (BlockForm.symmetric w).isClosed cs i = false) :
    occurrencesFrom w cs i = [] := by
  apply occurrencesFrom_eq_nil
  intro k hik hk
  rw [← Bool.not_eq_true]
  intro hocc
  rw [BlockForm.isClosed_iff.mpr ⟨k, hik, hk, hocc⟩] at h
  cases h

theorem occurrencesFrom_of_closer? (hne : w ≠ []) {e : Nat} (h : (BlockForm.symmetric w).closer? cs i = some e) :
    occurrencesFrom w cs i = e :: occurrencesFrom w cs (e + w.length) := by
  obtain ⟨hocc, hle, -, hfirst⟩ := BlockForm.closer?_eq_some_iff.mp h
  exact occurrencesFrom_of_first hne hocc hle hfirst

theorem isEmpty_occurrencesFrom (hne : w ≠ []) (cs : List Char) (i : Nat) :
    (occurrencesFrom w cs i).isEmpty = !(BlockForm.symmetric w).isClosed cs i := by
  cases hclosed : (BlockForm.symmetric w).isClosed cs i with
  | false => rw [occurrencesFrom_of_not_isClosed hclosed]; rfl
  | true =>
    obtain ⟨e, he⟩ := Option.isSome_iff_exists.mp hclosed
    rw [occurrencesFrom_of_closer? hne he]
    rfl

variable (hne : w ≠ []) (hw : ∀ c ∈ w, isBlank c = false)
include hne hw

theorem occurrencesFrom_of_blank (hblank : cs[i]?.any isBlank = true) :
    occurrencesFrom w cs i = occurrencesFrom w cs (i + 1) := by
  have hpos := List.length_pos_iff.mpr hne
  exact occurrencesFrom_of_not (occursAt_eq_false_of_blank hw hblank (Nat.le_refl i) (by omega))

/-- A delimiter repeats an opening one exactly if a second unit of the opener can be taken there. -/
theorem repeats_iff {e : Nat} (hocc : occursAt false (exactly w) cs e = true) :
    (repeats w cs o e && !(occurrencesFrom w cs (e + w.length)).isEmpty) = true ↔
      e = o + (w.length + 1) ∧ (BlockForm.symmetric w).Opens cs e := by
  rw [BlockForm.Opens, occursAt_symmetric, hocc, symmetric_unit_length]
  cases hblank : cs[e + w.length]?.any isBlank with
  | false => simp [repeats, hblank]
  | true =>
    have hnext := occurrencesFrom_of_blank hne hw hblank
    simp [repeats, hblank, hnext, isEmpty_occurrencesFrom hne, Nat.add_assoc]

/-- Behind an opening delimiter, the block there is what is read next. -/
theorem pairUp_of_blockAt? {start : Nat} {hit : BlockHit}
    (h : (BlockForm.symmetric w).blockAt? cs start o = some hit) :
    ∃ a, hit.body = a + w.length + 1 ∧ pairUp w cs (some o) (occurrencesFrom w cs (o + (w.length + 1))) =
      (a, hit.closer) :: pairUp w cs none (occurrencesFrom w cs (hit.closer + w.length)) := by
  have hunit := symmetric_unit_ne_nil w
  have hlength := symmetric_unit_length w
  induction o using BlockForm.units_induction cs hunit generalizing hit with
  | none o hone =>
    rw [← BlockForm.isSome_blockAt?_iff hunit, h] at hone
    exact absurd rfl hone
  | single o hone hnext =>
    rw [BlockForm.blockAt?_of_single hunit hone hnext] at h
    rw [hlength] at h hnext
    obtain ⟨e, he, rfl⟩ := Option.map_eq_some_iff.mp h
    have hocc := (BlockForm.closer?_eq_some_iff.mp he).1
    have hrepeats : ¬ (repeats w cs o e && !(occurrencesFrom w cs (e + w.length)).isEmpty) = true := by
      intro hrepeats
      obtain ⟨rfl, hmore⟩ := (repeats_iff hne hw hocc).mp hrepeats
      exact hnext hmore
    refine ⟨o, rfl, ?_⟩
    rw [occurrencesFrom_of_closer? hne he, pairUp, if_neg hrepeats]
  | more o hone hnext ih =>
    rw [BlockForm.blockAt?_of_more hunit hone hnext] at h
    obtain ⟨later, hlater, rfl⟩ := Option.map_eq_some_iff.mp h
    obtain ⟨a, hbody, hread⟩ := ih hlater
    rw [hlength] at hnext hread
    obtain ⟨hocc, hblank⟩ := occurs_of_opens hnext
    have hrepeats := (repeats_iff hne hw hocc).mpr ⟨rfl, hnext⟩
    refine ⟨a, hbody, ?_⟩
    rw [occurrencesFrom_of_occursAt hne hocc, pairUp, if_pos hrepeats, occurrencesFrom_of_blank hne hw hblank]
    exact hread

/-- From within an occurrence to its last character nothing is read that could open a block. -/
theorem pairUp_skip (h : canOpen w cs i = false) :
    pairUp w cs none (occurrencesFrom w cs i) = pairUp w cs none (occurrencesFrom w cs (i + 1)) := by
  induction hn : cs.length + 1 - i using Nat.strongRecOn generalizing i with
  | ind n ih =>
    cases hocc : occursAt false (exactly w) cs i with
    | false => rw [occurrencesFrom_of_not hocc]
    | true =>
      have hle := length_le_of_occursAt (exactly_ne_nil hne) hocc
      rw [exactly_length] at hle
      have hwithin : ∀ k, k < w.length → pairUp w cs none (occurrencesFrom w cs (i + 1)) =
          pairUp w cs none (occurrencesFrom w cs (i + k + 1)) := by
        intro k hk
        induction k with
        | zero => rfl
        | succ k ihk =>
          have hbehind := canOpen_behind hw hocc (Nat.lt_of_succ_lt hk)
          exact (ihk (Nat.lt_of_succ_lt hk)).trans (ih _ (by omega) hbehind rfl)
      have hpos := List.length_pos_iff.mpr hne
      have hlast : i + (w.length - 1) + 1 = i + w.length := by omega
      rw [hwithin (w.length - 1) (by omega), hlast, occurrencesFrom_of_occursAt hne hocc, pairUp, h]
      rfl

theorem pairUp_of_not_opens (h : ¬ (BlockForm.symmetric w).Opens cs i) :
    pairUp w cs none (occurrencesFrom w cs i) = pairUp w cs none (occurrencesFrom w cs (i + 1)) := by
  cases hopen : canOpen w cs i with
  | false => exact pairUp_skip hne hw hopen
  | true =>
    cases hocc : occursAt false (exactly w) cs i with
    | false => rw [occurrencesFrom_of_not hocc]
    | true =>
      rw [canOpen, Bool.and_eq_true] at hopen
      have hblank : cs[i + w.length]?.any isBlank = true := hopen.2
      have hclosed : (BlockForm.symmetric w).isClosed cs (i + w.length + 1) = false := by
        rw [BlockForm.Opens, occursAt_symmetric, hocc, hblank, symmetric_unit_length] at h
        simpa [Nat.add_assoc] using h
      have hlast : occurrencesFrom w cs (i + w.length) = [] := by
        rw [occurrencesFrom_of_blank hne hw hblank]
        exact occurrencesFrom_of_not_isClosed hclosed
      have hnone : occurrencesFrom w cs (i + 1) = [] := by
        apply occurrencesFrom_eq_nil
        intro k hik hk
        by_cases hle : k ≤ i + w.length
        · exact occursAt_eq_false_of_blank hw hblank hle (by omega)
        · rw [← Bool.not_eq_true]
          intro hlater
          rw [BlockForm.isClosed_iff.mpr ⟨k, by omega, hk, hlater⟩] at hclosed
          cases hclosed
      rw [occurrencesFrom_of_occursAt hne hocc, hlast, hnone]
      simp only [pairUp]

theorem pairUp_of_blockHit? {hit : BlockHit} (h : (BlockForm.symmetric w).blockHit? cs i = some hit) :
    ∃ a, hit.body = a + w.length + 1 ∧ pairUp w cs none (occurrencesFrom w cs i) =
      (a, hit.closer) :: pairUp w cs none (occurrencesFrom w cs (hit.closer + w.length)) := by
  obtain ⟨o, ho, hblock⟩ := List.exists_of_findSome?_eq_some h
  have hone : (BlockForm.symmetric w).Opens cs o :=
    (BlockForm.isSome_blockAt?_iff (symmetric_unit_ne_nil w)).mp (Option.isSome_of_mem hblock)
  obtain ⟨hocc, hblank⟩ := occurs_of_opens hone
  obtain ⟨a, hbody, hread⟩ := pairUp_of_blockAt? hne hw hblock
  have hopener : canOpen w cs o = true ∧ occurrencesFrom w cs i = occurrencesFrom w cs o := by
    simp only [openerOffsets, List.mem_append, List.mem_ite_nil_right, List.mem_singleton] at ho
    rcases ho with ⟨hstart, rfl⟩ | ⟨hgap, rfl⟩
    · simp [canOpen, hstart, hblank]
    · refine ⟨by simp [canOpen, hgap, hblank], occurrencesFrom_of_blank hne hw ?_⟩
      obtain ⟨c, hc, hcgap⟩ := (Option.any_eq_true _ _).mp hgap
      exact (Option.any_eq_true _ _).mpr ⟨c, hc, isBlank_of_isGap hcgap⟩
  refine ⟨a, hbody, ?_⟩
  rw [hopener.2, occurrencesFrom_of_occursAt hne hocc, occurrencesFrom_of_blank hne hw hblank, pairUp, hopener.1,
    if_pos rfl]
  exact hread

/-- The blocks found from an offset on are those read, if nothing at the offset opens a block but at the start of a
line. -/
theorem hitsFrom_eq_pairUp (cs : List Char) (i : Nat)
    (hfirst : (BlockForm.symmetric w).Opens cs i → canOpen w cs i = true → isLineStart cs i = true) :
    (hitsFrom ((BlockForm.symmetric w).blockHit? cs) (BlockForm.symmetric w).stop cs.length i).map
        (fun h => (h.body, h.closer)) =
      (pairUp w cs none (occurrencesFrom w cs i)).map fun p => (p.1 + w.length + 1, p.2) := by
  have hunit := symmetric_unit_ne_nil w
  have hpos := List.length_pos_iff.mpr hne
  induction i using hitsFrom.induct ((BlockForm.symmetric w).blockHit? cs) (BlockForm.symmetric w).stop cs.length with
  | case1 c hc hit hhit ih =>
    obtain ⟨a, hbody, hread⟩ := pairUp_of_blockHit? hne hw hhit
    obtain ⟨-, -, hopener, hlt, hcloser, hlen⟩ := BlockForm.blockHit?_bounds hunit hhit
    have hstop : max (c + 1) ((BlockForm.symmetric w).stop hit) = hit.closer + w.length := by
      simp only [BlockForm.stop, BlockForm.symmetric]
      omega
    rw [hstop] at ih
    have hblock := BlockForm.blockAt?_of_blockHit? hunit hhit
    have hocc := (BlockForm.closer?_eq_some_iff.mp (BlockForm.closer?_of_blockAt? hblock)).1
    have hbehind : canOpen w cs (hit.closer + w.length) = false := by
      have hlast := canOpen_behind hw hocc (Nat.sub_lt hpos Nat.one_pos)
      rwa [Nat.add_assoc, Nat.sub_add_cancel hpos] at hlast
    rw [hitsFrom_of_some hc hhit, hstop, hread, List.map_cons, List.map_cons, hbody, ih]
    intro _ hopen
    rw [hbehind] at hopen
    cases hopen
  | case2 c hc hnone ih =>
    have hopeners : ∀ o ∈ openerOffsets cs c, ¬ (BlockForm.symmetric w).Opens cs o := by
      intro o ho hone
      have hblock := List.findSome?_eq_none_iff.mp hnone o ho
      rw [← BlockForm.isSome_blockAt?_iff hunit, hblock] at hone
      cases hone
    rw [hitsFrom_of_none hnone, ih]
    · by_cases hone : (BlockForm.symmetric w).Opens cs c
      · have hopen : canOpen w cs c = false := by
          rw [← Bool.not_eq_true]
          intro hopen
          exact hopeners c (by simp [openerOffsets, hfirst hone hopen]) hone
        rw [pairUp_skip hne hw hopen]
      · rw [pairUp_of_not_opens hne hw hone]
    · intro hone hopen
      by_contra hstart
      rw [Bool.not_eq_true] at hstart
      simp only [canOpen, hstart, Bool.false_or, Bool.and_eq_true, Nat.add_sub_cancel] at hopen
      have hgap : cs[c]?.any isGap = true := hopen.1
      exact hopeners (c + 1) (by simp [openerOffsets, hgap]) hone
  | case3 c hc =>
    have hnone : occurrencesFrom w cs c = [] := hitsFrom_of_lt (Nat.not_le.mp hc)
    rw [hitsFrom_of_lt (Nat.not_le.mp hc), hnone, pairUp]
    rfl

end Scan

theorem ends_filterMap_comment? (kind : CommentKind) (cs : List Char) (hits : List BlockHit) :
    (hits.filterMap (BlockHit.comment? kind cs)).map (fun c => (c.start, c.stop)) =
      (hits.map fun h => (h.body, h.closer)).filter fun r => r.1 < r.2 := by
  induction hits with
  | nil => rfl
  | cons h hits ih =>
    rw [List.filterMap_cons, List.map_cons, List.filter_cons]
    by_cases hlt : h.body < h.closer
    · simp [BlockHit.comment?, ofRange?, hlt, ih]
    · simp [BlockHit.comment?, ofRange?, hlt, ih]

theorem ofDelimiters_of_eq {d : Delimiters} (h : d.opening = d.closing) :
    BlockForm.ofDelimiters d = BlockForm.symmetric d.opening.toList := by
  rw [BlockForm.ofDelimiters, BlockForm.symmetric, h]

/-- Where blocks open and close with the same delimiter, each one found lies between two neighbouring delimiters, one
white space behind the first of them, and no delimiter bounds two blocks. They lie between a first and a second delimiter,
a third and a fourth and so on if each of these pairs is regular. -/
theorem extract_block_pairs (id : String) (wanted : Bool) (scope : Scope) (cs : List Char) (d : Delimiters)
    (hd : (Language.profileFor id wanted).block = some d) (heq : d.opening = d.closing) :
    let w := d.opening.toList
    let all := occurrences w cs
    ∃ ps : List (Nat × Nat), (extractOf .block (Language.profileFor id wanted) scope cs).map (fun c => (c.start, c.stop)) =
        ps.map (fun p => (p.1 + w.length + 1, p.2)) ∧
      (ps.flatMap fun p => [p.1, p.2]).Sublist all ∧ (∀ p ∈ ps, [p.1, p.2] <:+: all) ∧
      ((∀ p ∈ pairs all, Regular w cs p) → ∀ p ∈ ps, p ∈ pairs all) := by
  intro w all
  obtain ⟨⟨hne, hw⟩, -⟩ := Language.blockDelimiters_proper hd
  have hs := Language.supported_of_block hd
  let found := if scope.blocks = true then pairUp w cs none all else []
  let kept := fun p : Nat × Nat => decide (p.1 + w.length + 1 < p.2)
  have hfound : ∀ p ∈ found.filter kept, p ∈ pairUp w cs none all := by
    intro p hp
    have hmem := List.mem_of_mem_filter hp
    simp only [found] at hmem
    split_ifs at hmem
    · exact hmem
    · cases hmem
  refine ⟨found.filter kept, ?_, ?_, ?_, ?_⟩
  · rw [extractOf_block hs hd, ofDelimiters_of_eq heq]
    simp only [found]
    split_ifs
    · have hscan := hitsFrom_eq_pairUp hne hw cs 0 fun _ _ => rfl
      rw [ends_filterMap_comment?, BlockForm.blockHits, hscan, List.filter_map]
      rfl
    · rfl
  · have hsub : (found.filter kept).Sublist (pairUp w cs none all) := by
      simp only [found]
      split_ifs
      · exact List.filter_sublist
      · exact List.nil_sublist _
    exact (hsub.flatMap _).trans (pairUp_sublist w cs none all)
  · intro p hp
    exact infix_of_mem_pairUp (hfound p hp)
  · intro hregular p hp
    exact mem_pairs_of_regular hregular (hfound p hp)

/-- Two blocks with a string between them, none of whose delimiters can open a block. -/
theorem extract_block_pairs_regular :
    let profile := Language.profileFor "python" false
    let w := "\"\"\"".toList
    let cs := "\"\"\"\na\n\"\"\"\nb = \"\"\"x\"\"\"\n\"\"\" c \"\"\"".toList
    profile.block = some ⟨"\"\"\"", "\"\"\""⟩ ∧ pairs (occurrences w cs) = [(0, 6), (14, 18), (22, 28)] ∧
      (∀ p ∈ pairs (occurrences w cs), Regular w cs p) ∧
      extractOf .block profile {} cs = [⟨.block, 4, 6, 0, "a\n"⟩, ⟨.block, 26, 28, 4, "c "⟩] ∧
      ∃ ps : List (Nat × Nat), (extractOf .block profile {} cs).map (fun c => (c.start, c.stop)) =
        ps.map (fun p => (p.1 + w.length + 1, p.2)) ∧ ∀ p ∈ ps, p ∈ pairs (occurrences w cs) := by
  intro profile w cs
  have hregular : ∀ p ∈ pairs (occurrences w cs), Regular w cs p := by decide +kernel
  obtain ⟨ps, hfound, -, -, hps⟩ := extract_block_pairs "python" false {} cs ⟨"\"\"\"", "\"\"\""⟩ rfl rfl
  exact ⟨rfl, by decide +kernel, hregular, by decide +kernel, ps, hfound, hps hregular⟩

/-- A closing delimiter may open a block where its opening one could not. -/
theorem block_outside_pairs :
    ¬ ∀ (id : String) (wanted : Bool) (scope : Scope) (cs : List Char) (d : Delimiters),
      (Language.profileFor id wanted).block = some d → d.opening = d.closing →
      ∀ c ∈ extractOf .block (Language.profileFor id wanted) scope cs,
        ∃ p ∈ pairs (occurrences d.opening.toList cs), p.1 + d.opening.toList.length ≤ c.start ∧ c.stop ≤ p.2 := by
  intro h
  have hpair := h "python" false {} "\"\"\"a\n\"\"\" b \"\"\"c\"\"\"".toList ⟨"\"\"\"", "\"\"\""⟩ rfl rfl
    ⟨.block, 9, 11, 1, "b "⟩ (by decide +kernel)
  exact absurd hpair (by decide +kernel)

end CommentGrade.Comment
