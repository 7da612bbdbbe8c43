import CommentGrade.Proofs.Pattern.Notation
import CommentGrade.Proofs.Pattern.Place

/-!
# Reading written patterns

A reader of the notation goes over the marks once. It keeps what has been read of the innermost group and of those
around it; an escape, a bracket, a bar or a sign of repetition has its meaning, and any other operator is refused.
Groups are numbered by their opening brackets. The main statements say that the reader takes the written form of the
pattern it came from back to that pattern, part by part.
-/
namespace CommentGrade

open Pattern

/-- The set between square brackets. -/
def CharSet.ofMarks? (ms : List Mark) : Option CharSet :=
  if ms = [.plain ' ', .quoted 't'] then some .blankOrTab
  else if ms = [.quoted 's'] then some .space
  else if ms = [.quoted 's', .quoted 'S'] then some .any
  else if ms = [.plain '^', .quoted 'r', .quoted 'n'] then some .inLine
  else none

/-- One of several patterns, the earlier ones first. -/
def Pattern.firstOf : List Pattern → Pattern
  | [] => .empty
  | [p] => p
  | p :: ps => .alt p (firstOf ps)

/-- Whether a sign of repetition may stand behind a pattern. -/
def Pattern.isRepeatable : Pattern → Bool
  | .set _ | .group _ _ => true
  | _ => false

/-- What has been read of a group: the alternatives before the last bar, and the parts behind it, the latest first. -/
structure Draft where
  choices : List Pattern
  parts : List Pattern

namespace Draft

def new : Draft := ⟨[], []⟩

def add (d : Draft) (p : Pattern) : Draft := ⟨d.choices, p :: d.parts⟩

/-- The draft behind a bar. -/
def bar (d : Draft) : Draft := ⟨inOrder d.parts.reverse :: d.choices, []⟩

def pattern (d : Draft) : Pattern := firstOf d.bar.choices.reverse

end Draft

/-- How far a reader has come: the drafts of the groups that are still open with their numbers, the number of groups
opened so far, and, between square brackets, the marks seen there, the latest first. -/
structure Reading where
  draft : Draft
  around : List (Nat × Draft)
  count : Nat
  set? : Option (List Mark)

namespace Reading

def start : Reading := ⟨.new, [], 0, none⟩

def add (r : Reading) (p : Pattern) : Reading := { r with draft := r.draft.add p }

/-- The last part repeated. -/
def repeat? (r : Reading) (repeated : Pattern → Pattern) : Option Reading :=
  match r.draft.parts with
  | p :: ps => if p.isRepeatable then some { r with draft := ⟨r.draft.choices, repeated p :: ps⟩ } else none
  | [] => none

/-- What a mark with a meaning does outside of square brackets. -/
def operate? (r : Reading) : Mark → Option Reading
  | .plain '(' => some ⟨.new, (r.count + 1, r.draft) :: r.around, r.count + 1, none⟩
  | .plain ')' =>
    match r.around with
    | (i, d) :: around => some ⟨d.add (.group i r.draft.pattern), around, r.count, none⟩
    | [] => none
  | .plain '|' => some { r with draft := r.draft.bar }
  | .plain '[' => some { r with set? := some [] }
  | .plain '^' => some (r.add .lineStart)
  | .plain '*' => r.repeat? (.star · false)
  | .plain '+' => r.repeat? .plus
  | .plain '?' =>
    match r.draft.parts with
    | .star p false :: ps => some { r with draft := ⟨r.draft.choices, .star p true :: ps⟩ }
    | _ => none
  | .quoted 't' => some (r.add (.set .tab))
  | .quoted 's' => some (r.add (.set .space))
  | _ => none

def step (r : Reading) (m : Mark) : Option Reading :=
  match r.set? with
  | some ms =>
    if m = .plain ']' then (CharSet.ofMarks? ms.reverse).map fun s => { r.add (.set s) with set? := none }
    else some { r with set? := some (m :: ms) }
  | none =>
    match m.literal? with
    | some c => some (r.add (.set (.char c)))
    | none => r.operate? m

theorem step_operator {r : Reading} {m : Mark} (hset : r.set? = none) (hm : m.literal? = none) :
    r.step m = r.operate? m := by
  simp only [step, hset, hm]

/-- The pattern that has been read, if nothing is left open. -/
def pattern? (r : Reading) : Option Pattern :=
  if r.around.isEmpty && r.set?.isNone then some r.draft.pattern else none

end Reading

/-- Reads a written pattern. -/
def Pattern.read? (cs : List Char) : Option Pattern := do
  let r ← (marks cs).foldlM Reading.step .start
  r.pattern?

/-- Marks that are read as parts of a group, whatever has been read before; they open the groups with the numbers from
`first + 1` to `last`. -/
structure AddsParts (ms : List Mark) (first last : Nat) (ps : List Pattern) : Prop where
  foldlM_eq : ∀ (d : Draft) (around : List (Nat × Draft)),
    ms.foldlM Reading.step ⟨d, around, first, none⟩ =
      some ⟨⟨d.choices, ps.reverse ++ d.parts⟩, around, last, none⟩

/-- Marks that are read as alternatives, where an alternative begins. -/
structure AddsChoices (ms : List Mark) (first last : Nat) (ps : List Pattern) : Prop where
  foldlM_eq : ∀ (choices : List Pattern) (around : List (Nat × Draft)), ∃ d,
    ms.foldlM Reading.step ⟨⟨choices, []⟩, around, first, none⟩ = some ⟨d, around, last, none⟩ ∧
      d.bar = ⟨ps.reverse ++ choices, []⟩

section Parts

variable {us vs : List Mark} {first mid last : Nat} {ps qs : List Pattern}

theorem addsParts_empty (n : Nat) : AddsParts (marks Pattern.empty.source) n n [] where
  foldlM_eq := by
    intro d around
    rfl

theorem AddsParts.append (hu : AddsParts us first mid ps) (hv : AddsParts vs mid last qs) :
    AddsParts (us ++ vs) first last (ps ++ qs) where
  foldlM_eq := by
    intro d around
    rw [List.foldlM_append, hu.foldlM_eq]
    change vs.foldlM Reading.step _ = _
    rw [hv.foldlM_eq, List.reverse_append, List.append_assoc]

theorem AddsParts.seq {p q : Pattern} (hp : AddsParts (marks p.source) first mid ps)
    (hq : AddsParts (marks q.source) mid last qs) : AddsParts (marks (seq p q).source) first last (ps ++ qs) := by
  rw [marks_source_seq]
  exact hp.append hq

theorem addsParts_singleton {m : Mark} {p : Pattern} {n : Nat}
    (h : ∀ d around, Reading.step ⟨d, around, n, none⟩ m = some ⟨d.add p, around, n, none⟩) :
    AddsParts [m] n n [p] where
  foldlM_eq := by
    intro d around
    rw [List.foldlM_cons, h]
    rfl

theorem addsParts_char (c : Char) (n : Nat) : AddsParts [Mark.ofChar c] n n [.set (.char c)] := by
  refine addsParts_singleton ?_
  intro d around
  simp only [Reading.step, Mark.literal?_ofChar]
  rfl

theorem addsParts_chars (w : List Char) (n : Nat) :
    AddsParts (w.map Mark.ofChar) n n (w.map fun c => .set (.char c)) := by
  induction w with
  | nil => exact addsParts_empty n
  | cons c w ih => exact (addsParts_char c n).append ih

theorem addsParts_set (s : CharSet) (n : Nat) : AddsParts (marks (Pattern.set s).source) n n [.set s] := by
  cases s with
  | char c =>
    change AddsParts (marks (escapedChar c)) n n [.set (.char c)]
    rw [marks_escapedChar]
    exact addsParts_char c n
  | tab | blankOrTab | space | any | inLine => exact ⟨fun _ _ => rfl⟩

theorem addsParts_lineStart (n : Nat) : AddsParts (marks lineStart.source) n n [.lineStart] :=
  ⟨fun _ _ => rfl⟩

/-- A sign of repetition changes the part before it. -/
theorem AddsParts.repeated {p : Pattern} (hp : AddsParts us first last [p]) (hrepeat : p.isRepeatable = true)
    (repeated : Pattern → Pattern) {m : Mark}
    (hm : ∀ r : Reading, r.set? = none → r.step m = r.repeat? repeated) :
    AddsParts (us ++ [m]) first last [repeated p] where
  foldlM_eq := by
    intro d around
    rw [List.foldlM_append, hp.foldlM_eq]
    change [m].foldlM Reading.step ⟨⟨d.choices, p :: d.parts⟩, around, last, none⟩ = _
    rw [List.foldlM_cons, hm _ rfl, Reading.repeat?]
    simp only [hrepeat, if_true]
    rfl

theorem AddsParts.star {p : Pattern} (hp : AddsParts (marks p.source) first last [p]) (hrepeat : p.isRepeatable = true)
    (lazily : Bool) : AddsParts (marks (star p lazily).source) first last [.star p lazily] := by
  have hgreedy : AddsParts (marks p.source ++ [.plain '*']) first last [.star p false] :=
    hp.repeated hrepeat (.star · false) fun r hr => Reading.step_operator hr (by decide)
  rw [marks_source_star]
  cases lazily with
  | false => exact hgreedy
  | true =>
    refine ⟨?_⟩
    intro d around
    have hsplit : marks p.source ++ .plain '*' :: (if true then [Mark.plain '?'] else []) =
        (marks p.source ++ [.plain '*']) ++ [.plain '?'] := by simp
    rw [hsplit, List.foldlM_append, hgreedy.foldlM_eq]
    rfl

theorem AddsParts.plus {p : Pattern} (hp : AddsParts (marks p.source) first last [p]) (hrepeat : p.isRepeatable = true) :
    AddsParts (marks (plus p).source) first last [.plus p] := by
  rw [marks_source_plus]
  exact hp.repeated hrepeat .plus fun r hr => Reading.step_operator hr (by decide)

theorem AddsParts.choices (h : AddsParts us first last ps) : AddsChoices us first last [inOrder ps] where
  foldlM_eq := by
    intro choices around
    refine ⟨⟨choices, ps.reverse⟩, ?_, ?_⟩
    · rw [h.foldlM_eq, List.append_nil]
    · rw [Draft.bar, List.reverse_reverse]
      rfl

theorem AddsChoices.bar (hu : AddsChoices us first mid ps) (hv : AddsChoices vs mid last qs) :
    AddsChoices (us ++ .plain '|' :: vs) first last (ps ++ qs) where
  foldlM_eq := by
    intro choices around
    obtain ⟨d, hd, hbar⟩ := hu.foldlM_eq choices around
    obtain ⟨e, he, hlast⟩ := hv.foldlM_eq (ps.reverse ++ choices) around
    refine ⟨e, ?_, ?_⟩
    · rw [List.foldlM_append, hd]
      change vs.foldlM Reading.step ⟨d.bar, around, mid, none⟩ = _
      rw [hbar, he]
    · rw [hlast, List.reverse_append, List.append_assoc]

/-- A group is one part, with the next free number. -/
theorem AddsChoices.group {p : Pattern} (h : AddsChoices (marks p.source) (first + 1) last ps) :
    AddsParts (marks (group (first + 1) p).source) first last [.group (first + 1) (firstOf ps)] where
  foldlM_eq := by
    intro d around
    obtain ⟨e, he, hbar⟩ := h.foldlM_eq [] ((first + 1, d) :: around)
    have hpattern : e.pattern = firstOf ps := by
      rw [Draft.pattern, hbar, List.append_nil, List.reverse_reverse]
    rw [marks_source_group, List.foldlM_cons]
    change (marks p.source ++ [Mark.plain ')']).foldlM Reading.step
      ⟨⟨[], []⟩, (first + 1, d) :: around, first + 1, none⟩ = _
    rw [List.foldlM_append, he, ← hpattern]
    rfl

theorem AddsChoices.read? {cs : List Char} (h : AddsChoices (marks cs) 0 last ps) :
    Pattern.read? cs = some (firstOf ps) := by
  obtain ⟨d, hd, hbar⟩ := h.foldlM_eq [] []
  have hpattern : d.pattern = firstOf ps := by
    rw [Draft.pattern, hbar, List.append_nil, List.reverse_reverse]
  rw [Pattern.read?]
  change ((marks cs).foldlM Reading.step ⟨⟨[], []⟩, [], 0, none⟩).bind _ = _
  rw [hd, ← hpattern]
  rfl

end Parts

section Texts

theorem inOrder_chars (w : List Char) : inOrder (w.map fun c => .set (.char c)) = literal w := by
  induction w with
  | nil => rfl
  | cons c w ih =>
    cases w with
    | nil => rfl
    | cons d w =>
      have hrest : (d :: w).map (fun c => Pattern.set (.char c)) ≠ [] := by simp
      rw [List.map_cons, inOrder.eq_3 _ _ hrest, ih]
      rfl

theorem addsChoices_literal (w : List Char) (n : Nat) :
    AddsChoices (marks (literal w).source) n n [literal w] := by
  rw [marks_source_literal]
  have h := (addsParts_chars w n).choices
  rwa [inOrder_chars] at h

theorem firstOf_literals (ts : List (List Char)) : firstOf (ts.map literal) = oneOf ts := by
  induction ts with
  | nil => rfl
  | cons t ts ih =>
    cases ts with
    | nil => rfl
    | cons u us =>
      have hrest : (u :: us).map literal ≠ [] := by simp
      rw [List.map_cons, firstOf.eq_3 _ _ hrest, ih, oneOf.eq_3 t (u :: us) (by simp)]

theorem addsChoices_oneOf {ts : List (List Char)} (hne : ts ≠ []) (n : Nat) :
    AddsChoices (marks (oneOf ts).source) n n (ts.map literal) := by
  induction ts with
  | nil => exact absurd rfl hne
  | cons t ts ih =>
    cases ts with
    | nil => exact addsChoices_literal t n
    | cons u us =>
      rw [oneOf.eq_3 t (u :: us) (by simp), marks_source_alt]
      exact (addsChoices_literal t n).bar (ih (by simp))

theorem read?_escaped (w : List Char) : Pattern.read? (escaped w) = some (literal w) := by
  rw [← source_literal]
  exact (addsChoices_literal w 0).read?

example : Pattern.read? "(a|b)*\\(".toList = some
    (.seq (.star (.group 1 (.alt (.set (.char 'a')) (.set (.char 'b')))) false) (.set (.char '('))) := by decide

end Texts

namespace Pattern

/-- Whether a pattern matches a text as a whole. -/
def matchesWhole (caseless everyLine : Bool) (p : Pattern) (cs : List Char) : Bool :=
  (p.run caseless everyLine (.atStart cs) [] fun cur _ => if cur.rest.isEmpty then some () else none).isSome

/-- Patterns that are matched in the same way. -/
def MatchedAs (p q : Pattern) : Prop :=
  ∀ (α : Type) (caseless everyLine : Bool),
    (p.run caseless everyLine : Cursor → Captures → Next α → Option α) = q.run caseless everyLine

theorem occursAt_exactly_iff {w cs : List Char} {i : Nat} :
    Text.occursAt false (Text.exactly w) cs i = true ↔ (cs.drop i).take w.length = w := by
  induction w generalizing i with
  | nil => simp [Text.exactly]
  | cons c w ih =>
    have hcons : Text.exactly (c :: w) = .char c :: Text.exactly w := rfl
    rw [hcons, Text.occursAt_cons, Bool.and_eq_true, ih]
    cases hdrop : cs.drop i with
    | nil =>
      have hnone : cs[i]? = none := by rw [← List.head?_drop, hdrop, List.head?_nil]
      simp [hnone]
    | cons d rest =>
      have hd : cs[i]? = some d := by rw [← List.head?_drop, hdrop, List.head?_cons]
      have hrest : cs.drop (i + 1) = rest := by rw [← List.tail_drop, hdrop, List.tail_cons]
      rw [hd, hrest, Option.any_some, CharSet.contains, if_neg Bool.false_ne_true, beq_iff_eq,
        List.length_cons, List.take_succ_cons, List.cons.injEq, eq_comm (a := c)]

/-- A text matches itself and no other text. -/
theorem matchesWhole_literal (everyLine : Bool) (w cs : List Char) :
    (literal w).matchesWhole false everyLine cs = true ↔ cs = w := by
  have hstart : Cursor.atStart cs = .inText cs 0 := rfl
  rw [matchesWhole, hstart, (reads_literal w).run_eq, Text.exactly_length]
  constructor
  · intro h
    split_ifs at h with hocc hend
    · have htake := occursAt_exactly_iff.mp hocc
      rw [Nat.zero_add, Cursor.inText] at hend
      have hle : cs.length ≤ w.length := by simpa using hend
      rwa [List.drop_zero, List.take_of_length_le hle] at htake
    · exact absurd h Bool.false_ne_true
    · exact absurd h Bool.false_ne_true
  · rintro rfl
    have hocc : Text.occursAt false (Text.exactly cs) cs 0 = true := occursAt_exactly_iff.mpr (by simp)
    have hend : (Cursor.inText cs (0 + cs.length)).rest.isEmpty = true := by simp [Cursor.inText]
    rw [if_pos hocc, if_pos hend, Option.isSome_some]

end Pattern

end CommentGrade
