import CommentGrade.Proofs.Comment.Kinds
import CommentGrade.Proofs.Pattern.Backtracking
import CommentGrade.Proofs.Pattern.Search

/-!
# Block comments by a scan

A block begins at the start of a line or behind a blank with as many units of its opener as leave a closer behind them,
and ends at the first closer. `blockHits` says this without going back, and the matches of the expressions for blocks
and doc blocks are its hits.
-/
namespace CommentGrade.Comment

open Text Pattern

/-- The form of a kind of block: the sets of one unit of the opener, and the closer. -/
structure BlockForm where
  unit : List CharSet
  closer : List Char
  deriving DecidableEq, Repr

/-- The form of blocks between delimiters: white space follows each opening one. -/
def BlockForm.ofDelimiters (d : Delimiters) : BlockForm :=
  ⟨exactly d.opening.toList ++ [.space], d.closing.toList⟩

/-- The form of doc blocks. -/
def BlockForm.doc : BlockForm := ⟨exactly "/**".toList, "*/".toList⟩

/-- A block comment in a text: where the match begins, where the opener does, and the ends of its own text. -/
structure BlockHit where
  start : Nat
  opener : Nat
  body : Nat
  closer : Nat
  deriving DecidableEq, Repr

/-- The offsets where an opener may stand if a match begins at a given offset, the preferred one first. -/
def openerOffsets (cs : List Char) (i : Nat) : List Nat :=
  (if isLineStart cs i then [i] else []) ++ if cs[i]?.any isGap then [i + 1] else []

/-- What is found at a hit, unless it is empty. -/
def BlockHit.comment? (kind : CommentKind) (cs : List Char) (h : BlockHit) : Option Comment :=
  ofRange? kind cs (lineAt cs h.opener) h.body h.closer

namespace BlockForm

/-- The first closer at an offset or later. -/
def closer? (b : BlockForm) (cs : List Char) (i : Nat) : Option Nat :=
  (List.range' i (cs.length + 1 - i)).find? (occursAt false (exactly b.closer) cs)

/-- Whether a closer stands at an offset or later. -/
def isClosed (b : BlockForm) (cs : List Char) (i : Nat) : Bool := (b.closer? cs i).isSome

/-- The block with an opener at an offset, if a closer stands behind its first unit: its text begins behind the greatest
number of units with a closer behind them, and ends at the first closer. -/
def blockAt? (b : BlockForm) (cs : List Char) (start o : Nat) : Option BlockHit :=
  if Copies b.unit (b.isClosed cs) cs o 1 then
    let body := o + mostCopies b.unit (b.isClosed cs) cs o * b.unit.length
    (b.closer? cs body).map fun e => ⟨start, o, body, e⟩
  else none

/-- The block whose match begins at an offset. -/
def blockHit? (b : BlockForm) (cs : List Char) (i : Nat) : Option BlockHit :=
  (openerOffsets cs i).findSome? (b.blockAt? cs i)

/-- Where a block ends: behind its closer. -/
def stop (b : BlockForm) (h : BlockHit) : Nat := h.closer + b.closer.length

/-- The block comments of a text, each the first one behind its predecessor. -/
def blockHits (b : BlockForm) (cs : List Char) : List BlockHit :=
  hitsFrom (b.blockHit? cs) b.stop cs.length 0

/-- The spans of a hit: of the whole, of its own text, and of its closer. -/
def spans (b : BlockForm) (h : BlockHit) : Span × Option Span × Option Span :=
  (⟨h.start, b.stop h⟩, some ⟨h.body, h.closer⟩, some ⟨h.closer, b.stop h⟩)

variable {b : BlockForm} {cs : List Char} {i j : Nat}

theorem closer?_eq_some_iff {e : Nat} : b.closer? cs i = some e ↔
    occursAt false (exactly b.closer) cs e = true ∧ i ≤ e ∧ e ≤ cs.length ∧
      ∀ j, i ≤ j → j < e → occursAt false (exactly b.closer) cs j = false := by
  rw [closer?, List.find?_range'_eq_some]
  simp only [List.mem_range'_1]
  constructor
  · rintro ⟨hocc, ⟨hle, hlt⟩, hfirst⟩
    exact ⟨hocc, hle, by omega, by simpa using hfirst⟩
  · rintro ⟨hocc, hle, hlen, hfirst⟩
    exact ⟨hocc, ⟨hle, by omega⟩, by simpa using hfirst⟩

theorem closer?_eq_of_none (hij : i ≤ j)
    (h : ∀ k, i ≤ k → k < j → occursAt false (exactly b.closer) cs k = false) : b.closer? cs i = b.closer? cs j := by
  apply Option.ext
  intro e
  rw [closer?_eq_some_iff, closer?_eq_some_iff]
  constructor
  · intro hfound
    obtain ⟨hocc, hle, hlen, hfirst⟩ := hfound
    refine ⟨hocc, ?_, hlen, fun k hk => hfirst k (Nat.le_trans hij hk)⟩
    by_contra hlt
    rw [h e hle (Nat.not_le.mp hlt)] at hocc
    cases hocc
  · intro hfound
    obtain ⟨hocc, hle, hlen, hfirst⟩ := hfound
    refine ⟨hocc, Nat.le_trans hij hle, hlen, ?_⟩
    intro k hik hke
    by_cases hkj : k < j
    · exact h k hik hkj
    · exact hfirst k (Nat.not_lt.mp hkj) hke

theorem isClosed_iff : b.isClosed cs i = true ↔
    ∃ e, i ≤ e ∧ e ≤ cs.length ∧ occursAt false (exactly b.closer) cs e = true := by
  rw [isClosed, closer?, List.find?_isSome]
  simp only [List.mem_range'_1]
  constructor
  · rintro ⟨e, ⟨hle, hlt⟩, hocc⟩
    exact ⟨e, hle, by omega, hocc⟩
  · rintro ⟨e, hle, hlen, hocc⟩
    exact ⟨e, ⟨hle, by omega⟩, hocc⟩

theorem isClosed_anti (b : BlockForm) (cs : List Char) (i j : Nat) (hij : i ≤ j)
    (h : b.isClosed cs j = true) : b.isClosed cs i = true := by
  obtain ⟨e, hle, hlen, hocc⟩ := isClosed_iff.mp h
  exact isClosed_iff.mpr ⟨e, by omega, hlen, hocc⟩

theorem closer?_bounds {e : Nat} (h : b.closer? cs i = some e) :
    i ≤ e ∧ e + b.closer.length ≤ cs.length := by
  obtain ⟨hocc, hle, hlen, -⟩ := closer?_eq_some_iff.mp h
  refine ⟨hle, ?_⟩
  by_cases hnil : b.closer = []
  · simpa [hnil] using hlen
  · have := length_le_of_occursAt (exactly_ne_nil hnil) hocc
    rwa [exactly_length] at this

/-- The parts of a block follow each other within the text, and it has at least one unit. -/
theorem blockAt?_bounds {start o : Nat} {hit : BlockHit} (hne : b.unit ≠ [])
    (h : b.blockAt? cs start o = some hit) :
    hit.start = start ∧ hit.opener = o ∧ o < hit.body ∧ hit.body ≤ hit.closer ∧
      b.stop hit ≤ cs.length := by
  simp only [blockAt?, Option.ite_none_right_eq_some] at h
  obtain ⟨hone, hmap⟩ := h
  obtain ⟨e, he, rfl⟩ := Option.map_eq_some_iff.mp hmap
  obtain ⟨hle, hlen⟩ := closer?_bounds he
  have hpos := List.length_pos_iff.mpr hne
  have hmost : 0 < mostCopies b.unit (b.isClosed cs) cs o * b.unit.length :=
    Nat.mul_pos (hone.le_most hne) hpos
  exact ⟨rfl, rfl, Nat.lt_add_of_pos_right hmost, hle, hlen⟩

theorem exists_copies_of_blockAt? {start o : Nat} {hit : BlockHit} (hne : b.unit ≠ [])
    (h : b.blockAt? cs start o = some hit) :
    ∃ k, 0 < k ∧ hit.body = o + k * b.unit.length ∧ Copies b.unit (b.isClosed cs) cs o k := by
  simp only [blockAt?, Option.ite_none_right_eq_some] at h
  obtain ⟨hone, hmap⟩ := h
  obtain ⟨e, -, rfl⟩ := Option.map_eq_some_iff.mp hmap
  exact ⟨_, hone.le_most hne, rfl, copies_most hne hone⟩

theorem closer?_of_blockAt? {start o : Nat} {hit : BlockHit} (h : b.blockAt? cs start o = some hit) :
    b.closer? cs hit.body = some hit.closer := by
  simp only [blockAt?, Option.ite_none_right_eq_some] at h
  obtain ⟨e, he, rfl⟩ := Option.map_eq_some_iff.mp h.2
  exact he

/-- A block opens at an offset: a unit stands there, and a closer behind it. -/
def Opens (b : BlockForm) (cs : List Char) (o : Nat) : Prop :=
  occursAt false b.unit cs o = true ∧ b.isClosed cs (o + b.unit.length) = true

theorem opens_iff_copies {o : Nat} : b.Opens cs o ↔ Copies b.unit (b.isClosed cs) cs o 1 := copies_one_iff.symm

theorem isSome_blockAt?_iff {start o : Nat} (hne : b.unit ≠ []) :
    (b.blockAt? cs start o).isSome = true ↔ b.Opens cs o := by
  rw [opens_iff_copies, blockAt?]
  split_ifs with hone
  · have hclosed := (copies_most hne hone).2
    rw [Option.isSome_map]
    exact iff_of_true hclosed hone
  · simp [hone]

theorem blockAt?_of_single {start o : Nat} (hne : b.unit ≠ []) (hone : b.Opens cs o)
    (hnext : ¬ b.Opens cs (o + b.unit.length)) : b.blockAt? cs start o =
      (b.closer? cs (o + b.unit.length)).map fun e => ⟨start, o, o + b.unit.length, e⟩ := by
  rw [opens_iff_copies] at hone hnext
  simp only [blockAt?, hone, if_true, most_eq_one (b.isClosed_anti cs) hne hone hnext, Nat.one_mul]

/-- An opener of several units: the block is that of the opener behind the first one. -/
theorem blockAt?_of_more {start o : Nat} (hne : b.unit ≠ []) (hone : b.Opens cs o)
    (hnext : b.Opens cs (o + b.unit.length)) : b.blockAt? cs start o =
      (b.blockAt? cs start (o + b.unit.length)).map fun h => { h with opener := o } := by
  have hbody : ∀ k, o + (k + 1) * b.unit.length = o + b.unit.length + k * b.unit.length := by
    intro k
    rw [Nat.add_mul, Nat.one_mul]
    omega
  rw [opens_iff_copies] at hone hnext
  simp only [blockAt?, hone, hnext, if_true, most_eq_succ (b.isClosed_anti cs) hne hone hnext, hbody,
    Option.map_map]
  rfl

/-- The units of an opener are taken one after the other: a block opens at the first one and, unless it is the last one,
behind it. -/
theorem units_induction {P : Nat → Prop} (cs : List Char) (hne : b.unit ≠ []) (none : ∀ o, ¬ b.Opens cs o → P o)
    (single : ∀ o, b.Opens cs o → ¬ b.Opens cs (o + b.unit.length) → P o)
    (more : ∀ o, b.Opens cs o → b.Opens cs (o + b.unit.length) → P (o + b.unit.length) → P o) (o : Nat) : P o := by
  induction hn : cs.length - o using Nat.strongRecOn generalizing o with
  | ind n ih =>
    by_cases hone : b.Opens cs o
    · by_cases hnext : b.Opens cs (o + b.unit.length)
      · have hpos := List.length_pos_iff.mpr hne
        have hle := length_le_of_occursAt hne hone.1
        exact more o hone hnext (ih _ (by omega) _ rfl)
      · exact single o hone hnext
    · exact none o hone

theorem blockHit?_eq (b : BlockForm) (cs : List Char) (i : Nat) : b.blockHit? cs i =
    (if isLineStart cs i then b.blockAt? cs i i else none).or
      (if cs[i]?.any isGap then b.blockAt? cs i (i + 1) else none) := by
  rw [blockHit?, openerOffsets, List.findSome?_append]
  split_ifs <;> simp

theorem blockHit?_bounds {hit : BlockHit} (hne : b.unit ≠ []) (h : b.blockHit? cs i = some hit) :
    hit.start = i ∧ lineAt cs hit.opener = lineAt cs i ∧ i ≤ hit.opener ∧ hit.opener < hit.body ∧
      hit.body ≤ hit.closer ∧ b.stop hit ≤ cs.length := by
  obtain ⟨o, ho, hblock⟩ := List.exists_of_findSome?_eq_some h
  obtain ⟨hstart, rfl, hbody, hcloser, hlen⟩ := blockAt?_bounds hne hblock
  simp only [openerOffsets, List.mem_append, List.mem_ite_nil_right, List.mem_singleton] at ho
  rcases ho with ⟨-, ho⟩ | ⟨hgap, ho⟩
  · exact ⟨hstart, by rw [ho], by omega, hbody, hcloser, hlen⟩
  · obtain ⟨c, hc, hblank⟩ := (Option.any_eq_true _ _).mp hgap
    have hne : c ≠ '\n' := by
      rintro rfl
      exact absurd hblank (by decide)
    exact ⟨hstart, by rw [ho, lineAt_succ hc, if_neg hne, Nat.add_zero], by omega, hbody, hcloser,
      hlen⟩

theorem blockAt?_of_blockHit? {hit : BlockHit} (hne : b.unit ≠ []) (h : b.blockHit? cs i = some hit) :
    b.blockAt? cs i hit.opener = some hit := by
  obtain ⟨o, -, hblock⟩ := List.exists_of_findSome?_eq_some h
  rwa [(blockAt?_bounds hne hblock).2.1]

theorem blockAt?_of_mem {hit : BlockHit} (hne : b.unit ≠ []) (h : hit ∈ b.blockHits cs) :
    b.blockAt? cs hit.start hit.opener = some hit := by
  obtain ⟨i, -, -, hhit⟩ := exists_of_mem_hitsFrom h
  have hblock := blockAt?_of_blockHit? hne hhit
  rwa [(blockAt?_bounds hne hblock).1]

end BlockForm

section Match

variable {b : BlockForm} {cs : List Char} {opener : Pattern} {closing : String}

theorem run_closing (hclosing : closing.toList = b.closer) (start : Nat) {i : Nat}
    (hi : i ≤ cs.length) (caps : Captures) :
    (Pattern.seq (.group 3 (.star (.set .any) true)) (.group 4 (literal closing.toList))).run false true
        (.inText cs i) caps (fun cur' caps' => some (⟨⟨start, cur'.offset⟩, caps'⟩ : Match)) =
      (b.closer? cs i).map fun e => ⟨⟨start, e + b.closer.length⟩,
        (4, ⟨e, e + b.closer.length⟩) :: (3, ⟨i, e⟩) :: caps⟩ := by
  rw [hclosing, run, run, run_star_any hi]
  simp only [run, (reads_literal b.closer).run_eq, exactly_length, Cursor.inText_offset,
    BlockForm.closer?]
  induction List.range' i (cs.length + 1 - i) with
  | nil => rfl
  | cons e es ih =>
    rw [List.findSome?_cons, List.find?_cons]
    cases occursAt false (exactly b.closer) cs e with
    | false => simpa only [Bool.false_eq_true, if_false] using ih
    | true => rfl

/-- Behind the head of a match, the block at an opener is matched if there is one. -/
theorem run_block (hp : Reads false true opener b.unit) (hne : b.unit ≠ [])
    (hclosing : closing.toList = b.closer) (start : Nat) {o : Nat} (ho : o ≤ cs.length)
    (caps : Captures) : ∃ caps',
    (Pattern.seq (.plus (.group 2 opener)) (.seq (.group 3 (.star (.set .any) true))
        (.group 4 (literal closing.toList)))).run false true
        (.inText cs o) caps (fun cur' caps' => some (⟨⟨start, cur'.offset⟩, caps'⟩ : Match)) =
      (b.blockAt? cs start o).map fun h => ⟨⟨start, b.stop h⟩,
        (4, ⟨h.closer, b.stop h⟩) :: (3, ⟨h.body, h.closer⟩) :: caps'⟩ := by
  let next : Next Match := fun cur' caps' => (Pattern.seq (.group 3 (.star (.set .any) true))
    (.group 4 (literal closing.toList))).run false true cur' caps'
    fun cur' caps' => some ⟨⟨start, cur'.offset⟩, caps'⟩
  have hrun : ∀ i caps, i ≤ cs.length → next (.inText cs i) caps = (b.closer? cs i).map fun e =>
      ⟨⟨start, e + b.closer.length⟩, (4, ⟨e, e + b.closer.length⟩) :: (3, ⟨i, e⟩) :: caps⟩ :=
    fun i caps hi => run_closing hclosing start hi caps
  have hnext : ∀ i caps, i ≤ cs.length → (next (.inText cs i) caps).isSome = b.isClosed cs i := by
    intro i caps hi
    rw [hrun i caps hi, Option.isSome_map]
    rfl
  obtain ⟨caps', h⟩ := run_plus_units hp hne 2 hnext (b.isClosed_anti cs) ho caps
  refine ⟨caps', ?_⟩
  rw [run, h, BlockForm.blockAt?]
  split_ifs with hone
  · have hmost := (copies_most hne hone).offset_le hne ho
    rw [hrun _ _ hmost, Option.map_map]
    rfl
  · rfl

/-- The match of the expression at an offset is the hit there. -/
theorem matchAt?_enclosed (hp : Reads false true opener b.unit) (hne : b.unit ≠ [])
    (hclosing : closing.toList = b.closer) {i : Nat} (hi : i ≤ cs.length) :
    ((⟨enclosed opener closing, false, true⟩ : Expression).matchAt? false (.inText cs i)).map
        (fun m => (m.span, m.group? 3, m.group? 4)) = (b.blockHit? cs i).map b.spans := by
  let rest := Pattern.seq (.plus (.group 2 opener)) (.seq (.group 3 (.star (.set .any) true))
    (.group 4 (literal closing.toList)))
  let whole : Next Match := fun cur' caps' => some ⟨⟨i, cur'.offset⟩, caps'⟩
  have hmatch : (⟨enclosed opener closing, false, true⟩ : Expression).matchAt? false (.inText cs i) =
      (Pattern.group 1 (.alt .lineStart (.set .blankOrTab))).run false true (.inText cs i) []
        fun cur' caps' => rest.run false true cur' caps' whole := rfl
  have hblock : ∀ o ≤ cs.length, ∀ caps, (rest.run false true (.inText cs o) caps whole).map
      (fun m => (m.span, m.group? 3, m.group? 4)) = (b.blockAt? cs i o).map b.spans := by
    intro o ho caps
    obtain ⟨caps', h⟩ := run_block hp hne hclosing i ho caps
    rw [h, BlockForm.blockAt?]
    split_ifs
    · simp only [Option.map_map]
      rfl
    · rfl
  rw [hmatch, run, run, run_lineStart, run_set, Option.map_or, BlockForm.blockHit?_eq,
    Option.map_or]
  congr 1
  · split_ifs with hstart
    · exact hblock i hi _
    · rfl
  · have hgap : occursAt false [.blankOrTab] cs i = cs[i]?.any isGap := Bool.and_true _
    rw [hgap]
    split_ifs with hblank
    · have hlt : i + 1 ≤ cs.length := by
        obtain ⟨c, hc, -⟩ := Option.any_eq_true _ _ |>.mp hblank
        exact (List.getElem?_eq_some_iff.mp hc).1
      exact hblock (i + 1) hlt _
    · rfl

/-- The matches in a text are the hits of the scan. -/
theorem matchesIn_enclosed (hp : Reads false true opener b.unit) (hne : b.unit ≠ [])
    (hclosing : closing.toList = b.closer) (cs : List Char) :
    ((⟨enclosed opener closing, false, true⟩ : Expression).matchesIn cs).map
        (fun m => (m.span, m.group? 3, m.group? 4)) = (b.blockHits cs).map b.spans := by
  have hmatch := fun i (hi : i ≤ cs.length) => matchAt?_enclosed hp hne hclosing hi
  have hempty : ∀ i ≤ cs.length, ∀ m,
      (⟨enclosed opener closing, false, true⟩ : Expression).matchAt? false (.inText cs i) = some m →
      m.span.stop = i →
      (⟨enclosed opener closing, false, true⟩ : Expression).matchAt? true (.inText cs i) = none := by
    intro i hi m hm hstop
    have hhit := hmatch i hi
    rw [hm, Option.map_some, eq_comm, Option.map_eq_some_iff] at hhit
    obtain ⟨hit, hhit, hspans⟩ := hhit
    obtain ⟨-, -, hopener, hbody, hcloser, -⟩ := BlockForm.blockHit?_bounds hne hhit
    have hend : b.stop hit = m.span.stop := congrArg Span.stop (Prod.mk.inj hspans).1
    simp only [BlockForm.stop] at hend
    omega
  rw [Expression.matchesIn_eq_hitsFrom hempty, BlockForm.blockHits,
    hitsFrom_map (fun m : Match => (m.span, m.group? 3, m.group? 4)) (·.span.stop) (·.1.stop)
      (fun _ => rfl),
    hitsFrom_map b.spans b.stop (·.1.stop) (fun _ => rfl)]
  exact hitsFrom_congr hmatch

/-- The block comments of a text are what is found at the hits of the scan. -/
theorem blockComments_eq (hp : Reads false true opener b.unit) (hne : b.unit ≠ [])
    (hclosing : closing.toList = b.closer) (kind : CommentKind) (cs : List Char) :
    blockComments kind ⟨enclosed opener closing, false, true⟩ cs =
      (b.blockHits cs).filterMap (BlockHit.comment? kind cs) := by
  refine filterMap_eq_of_map_eq (matchesIn_enclosed hp hne hclosing cs) ?_
  intro m hit hmem hspans
  obtain ⟨hspan, hgroups⟩ := Prod.mk.inj hspans
  obtain ⟨hbody, hcloser⟩ := Prod.mk.inj hgroups
  obtain ⟨i, -, -, hhit⟩ := exists_of_mem_hitsFrom hmem
  obtain ⟨hstart, hline, -⟩ := BlockForm.blockHit?_bounds hne hhit
  simp only [ofBlockMatch?, hspan, hbody, hcloser, BlockHit.comment?, hstart, hline]

end Match

section Forms

theorem reads_blockOpener (d : Delimiters) : Reads false true
    (inOrder [literal d.opening.toList, .set .space]) (BlockForm.ofDelimiters d).unit :=
  (reads_literal d.opening.toList).seq (reads_set .space)

theorem ofDelimiters_unit_ne_nil (d : Delimiters) : (BlockForm.ofDelimiters d).unit ≠ [] := by
  simp [BlockForm.ofDelimiters]

theorem blockComments_ofDelimiters (kind : CommentKind) (d : Delimiters) (cs : List Char) :
    blockComments kind ⟨blockPattern d, false, true⟩ cs =
      ((BlockForm.ofDelimiters d).blockHits cs).filterMap (BlockHit.comment? kind cs) :=
  blockComments_eq (reads_blockOpener d) (ofDelimiters_unit_ne_nil d) rfl kind cs

theorem blockComments_doc (kind : CommentKind) (cs : List Char) :
    blockComments kind ⟨docPattern, false, true⟩ cs =
      (BlockForm.doc.blockHits cs).filterMap (BlockHit.comment? kind cs) :=
  blockComments_eq (reads_literal _) (by decide) rfl kind cs

theorem BlockForm.start_lt_stop_of_mem {b : BlockForm} (hne : b.unit ≠ []) {cs : List Char}
    {hit : BlockHit} (h : hit ∈ b.blockHits cs) : hit.start < b.stop hit := by
  obtain ⟨i, -, -, hhit⟩ := exists_of_mem_hitsFrom h
  obtain ⟨hstart, -, hopener, hbody, hcloser, -⟩ := BlockForm.blockHit?_bounds hne hhit
  simp only [BlockForm.stop]
  omega

theorem extractOf_block {profile : Profile} {d : Delimiters} (hs : profile.supported = true)
    (hd : profile.block = some d) (scope : Scope) (cs : List Char) : extractOf .block profile scope cs =
      if scope.blocks = true then
        ((BlockForm.ofDelimiters d).blockHits cs).filterMap (BlockHit.comment? .block cs)
      else [] := by
  cases hscope : scope.blocks <;>
    simp [extractOf, extract_filter_kind hs, runOf, Patterns.ofProfile, hs, hd, hscope, blockComments_ofDelimiters]

theorem extractOf_doc {profile : Profile} (hs : profile.supported = true) (scope : Scope) (cs : List Char) :
    extractOf .doc profile scope cs = if (profile.docBlocks && scope.docBlocks) = true then
        (BlockForm.doc.blockHits cs).filterMap (BlockHit.comment? .doc cs)
      else [] := by
  cases hscope : profile.docBlocks && scope.docBlocks <;>
    simp [extractOf, extract_filter_kind hs, runOf, Patterns.ofProfile, hs, hscope, blockComments_doc]

end Forms

/-- The blocks between the delimiters of a profile, and its doc blocks, are what is found at the hits of the scans for
their forms. -/
theorem extract_blocks_eq_scan (profile : Profile) (scope : Scope) (cs : List Char)
    (hs : profile.supported = true) :
    let found := fun k => (extract profile (Patterns.ofProfile profile scope) cs).filter (·.kind == k)
    (∀ d, profile.block = some d → scope.blocks = true →
      let b := BlockForm.ofDelimiters d
      (∀ h ∈ b.blockHits cs, h.start < b.stop h) ∧
        found .block = (b.blockHits cs).filterMap (BlockHit.comment? .block cs)) ∧
    (profile.docBlocks = true → scope.docBlocks = true →
      (∀ h ∈ BlockForm.doc.blockHits cs, h.start < BlockForm.doc.stop h) ∧
        found .doc = (BlockForm.doc.blockHits cs).filterMap (BlockHit.comment? .doc cs)) := by
  intro found
  constructor
  · intro d hd hscope b
    refine ⟨fun h hmem => BlockForm.start_lt_stop_of_mem (ofDelimiters_unit_ne_nil d) hmem, ?_⟩
    simp only [found, extract_filter_kind hs, runOf, Patterns.ofProfile, hs, hscope, hd, if_true,
      Option.map_some, Option.getD_some, blockComments_ofDelimiters, b]
  · intro hdoc hscope
    refine ⟨fun h hmem => BlockForm.start_lt_stop_of_mem (by decide) hmem, ?_⟩
    simp only [found, extract_filter_kind hs, runOf, Patterns.ofProfile, hs, hscope, hdoc,
      Bool.and_self, if_true, Option.map_some, Option.getD_some, blockComments_doc]

/-- Two units of equal delimiters open a block, as two units of a doc block do. -/
theorem extract_blocks_eq_scan_repeated :
    let profile : Profile := { supported := true, block := some ⟨"%", "%"⟩, docBlocks := true }
    let comments := extract profile (Patterns.ofProfile profile {}) "% %\n a% /**/**x*/".toList
    profile.supported = true ∧
      comments.filter (·.kind == .block) = [⟨.block, 4, 6, 0, " a"⟩] ∧
      comments.filter (·.kind == .doc) = [⟨.doc, 14, 15, 1, "x"⟩] := by
  intro profile comments
  have h := extract_blocks_eq_scan profile {} "% %\n a% /**/**x*/".toList rfl
  refine ⟨rfl, (h.1 ⟨"%", "%"⟩ rfl rfl).2.trans ?_, (h.2 rfl rfl).2.trans ?_⟩
  · decide +kernel
  · decide +kernel

end CommentGrade.Comment
