import CommentGrade.Pattern.Source
import Mathlib.Tactic.SplitIfs

/-!
# The notation of patterns

A written pattern is taken apart from left to right: a backslash makes the next character stand for itself, and the
brackets that are left enclose the groups. Text that is written with escapes adds no bracket and no bar, so the groups
that are seen in a written pattern are those of the pattern, whatever texts it was made of.
-/
namespace CommentGrade

/-- A character of a written pattern, and whether a backslash stands before it. -/
inductive Mark where
  | plain (c : Char)
  | quoted (c : Char)
  deriving DecidableEq, Repr

/-- The marks of a written pattern. A backslash at the very end quotes nothing. -/
def marks : List Char → List Mark
  | [] => []
  | '\\' :: c :: cs => .quoted c :: marks cs
  | c :: cs => .plain c :: marks cs

/-- The characters with a meaning in the notation, unless a backslash stands before them. -/
def isOperator (c : Char) : Bool :=
  ['.', '*', '+', '?', '^', '$', '\x7b', '\x7d', '(', ')', '|', '[', ']', '\\'].contains c

namespace Mark

/-- The character that a mark stands for, if it stands for itself. Letters and digits behind a backslash do not. -/
def literal? : Mark → Option Char
  | .plain c => if isOperator c then none else some c
  | .quoted c => if c.isAlphanum then none else some c

/-- How a character of a text is written. -/
def ofChar (c : Char) : Mark := if isMeta c then .quoted c else .plain c

def isBracket (m : Mark) : Bool := m == .plain '(' || m == .plain ')'

/-- The text that a sequence of marks stands for, if none of them has a meaning. -/
def text? (ms : List Mark) : Option (List Char) := ms.mapM literal?

theorem literal?_ofChar (c : Char) : (ofChar c).literal? = some c := by
  by_cases h : isMeta c = true
  · have hletters : ['.', '*', '+', '?', '^', '$', '\x7b', '\x7d', '(', ')', '|', '[', ']', '\\', '/'].all
        (fun x => !x.isAlphanum) = true := by decide
    have hc : c.isAlphanum = false := by
      have hmem := List.all_eq_true.mp hletters c (List.contains_iff_mem.mp h)
      rwa [Bool.not_eq_true'] at hmem
    rw [ofChar, if_pos h, literal?, hc, if_neg Bool.false_ne_true]
  · have hc : isOperator c = false := by
      rw [← Bool.not_eq_true]
      intro ho
      apply h
      rw [isOperator, List.contains_iff_mem] at ho
      rw [isMeta, List.contains_iff_mem]
      exact List.mem_append_left ['/'] ho
    rw [ofChar, if_neg h, literal?, hc, if_neg Bool.false_ne_true]

theorem text?_map_ofChar (w : List Char) : text? (w.map ofChar) = some w := by
  induction w with
  | nil => rfl
  | cons c w ih =>
    have hw : (w.map ofChar).mapM literal? = some w := ih
    rw [text?, List.map_cons, List.mapM_cons, literal?_ofChar, hw]
    rfl

theorem ofChar_ne {m : Mark} (h : m.literal? = none) (c : Char) : ofChar c ≠ m := by
  rintro rfl
  rw [literal?_ofChar] at h
  exact Option.some_ne_none c h

theorem isBracket_ofChar (c : Char) : (ofChar c).isBracket = false := by
  have hopen := ofChar_ne (m := .plain '(') (by decide) c
  have hclose := ofChar_ne (m := .plain ')') (by decide) c
  simp [isBracket, hopen, hclose]

end Mark

section Marks

theorem marks_plain {c : Char} (h : c ≠ '\\') (cs : List Char) : marks (c :: cs) = .plain c :: marks cs := by
  rw [marks]
  intro d ds hd
  exact absurd hd h

theorem marks_escapedChar_append (c : Char) (cs : List Char) :
    marks (escapedChar c ++ cs) = Mark.ofChar c :: marks cs := by
  unfold escapedChar Mark.ofChar
  split_ifs with h
  · rfl
  · have hc : c ≠ '\\' := by
      rintro rfl
      exact h (by decide)
    exact marks_plain hc cs

theorem marks_escapedChar (c : Char) : marks (escapedChar c) = [Mark.ofChar c] := by
  have h := marks_escapedChar_append c []
  rw [List.append_nil] at h
  exact h

theorem marks_escaped_append (w cs : List Char) :
    marks (escaped w ++ cs) = w.map Mark.ofChar ++ marks cs := by
  induction w with
  | nil => rfl
  | cons c w ih =>
    have hescaped : escaped (c :: w) = escapedChar c ++ escaped w := rfl
    rw [hescaped, List.append_assoc, marks_escapedChar_append, ih, List.map_cons, List.cons_append]

theorem marks_escaped (w : List Char) : marks (escaped w) = w.map Mark.ofChar := by
  have h := marks_escaped_append w []
  rwa [List.append_nil, marks, List.append_nil] at h

theorem marks_set_append (s : CharSet) (cs : List Char) : marks (s.source ++ cs) = marks s.source ++ marks cs := by
  cases s with
  | char c =>
    change marks (escapedChar c ++ cs) = marks (escapedChar c) ++ marks cs
    rw [marks_escapedChar_append, marks_escapedChar, List.singleton_append]
  | tab | blankOrTab | space | any | inLine => rfl

/-- The parts of a written pattern can be taken apart by themselves. -/
theorem marks_source_append (p : Pattern) (cs : List Char) :
    marks (p.source ++ cs) = marks p.source ++ marks cs := by
  induction p generalizing cs with
  | empty | lineStart => rfl
  | set s => exact marks_set_append s cs
  | seq p q ihp ihq => simp only [Pattern.source, List.append_assoc, ihp, ihq]
  | alt p q ihp ihq =>
    have hbar : ∀ ds, marks ('|' :: ds) = .plain '|' :: marks ds := marks_plain (by decide)
    simp only [Pattern.source, List.append_assoc, List.cons_append, ihp, hbar, ihq]
  | group i p ih =>
    have hopen : ∀ ds, marks ('(' :: ds) = .plain '(' :: marks ds := marks_plain (by decide)
    have hclose : ∀ ds, marks (')' :: ds) = .plain ')' :: marks ds := marks_plain (by decide)
    simp only [Pattern.source, List.append_assoc, List.cons_append, List.nil_append, hopen, ih, hclose, marks]
  | star p lazily ih => cases lazily <;> simp only [Pattern.source, List.append_assoc, ih] <;> rfl
  | plus p ih =>
    simp only [Pattern.source, List.append_assoc, ih]
    rfl

end Marks

/-- The bodies of the groups in a sequence of marks; `body?` is what has been seen of an open group, the latest mark
first. There are none if a bracket is missing or a group stands within another one. -/
def groupBodiesFrom? : (body? : Option (List Mark)) → List Mark → Option (List (List Mark))
  | none, [] => some []
  | some _, [] => none
  | none, m :: ms =>
    if m = .plain '(' then groupBodiesFrom? (some []) ms
    else if m = .plain ')' then none
    else groupBodiesFrom? none ms
  | some body, m :: ms =>
    if m = .plain '(' then none
    else if m = .plain ')' then (groupBodiesFrom? none ms).map (body.reverse :: ·)
    else groupBodiesFrom? (some (m :: body)) ms

def groupBodies? (ms : List Mark) : Option (List (List Mark)) := groupBodiesFrom? none ms

section Bodies

theorem groupBodiesFrom?_outside {us : List Mark} (h : ∀ m ∈ us, m.isBracket = false) (ms : List Mark) :
    groupBodiesFrom? none (us ++ ms) = groupBodiesFrom? none ms := by
  induction us with
  | nil => rfl
  | cons u us ih =>
    have hu := h u List.mem_cons_self
    simp only [Mark.isBracket, Bool.or_eq_false_iff, beq_eq_false_iff_ne] at hu
    rw [List.cons_append, groupBodiesFrom?, if_neg hu.1, if_neg hu.2]
    exact ih fun m hm => h m (List.mem_cons_of_mem u hm)

theorem groupBodiesFrom?_inside {us : List Mark} (h : ∀ m ∈ us, m.isBracket = false) (body ms : List Mark) :
    groupBodiesFrom? (some body) (us ++ .plain ')' :: ms) =
      (groupBodiesFrom? none ms).map ((body.reverse ++ us) :: ·) := by
  induction us generalizing body with
  | nil =>
    rw [List.nil_append, groupBodiesFrom?, if_neg (by decide), if_pos rfl, List.append_nil]
  | cons u us ih =>
    have hu := h u List.mem_cons_self
    simp only [Mark.isBracket, Bool.or_eq_false_iff, beq_eq_false_iff_ne] at hu
    rw [List.cons_append, groupBodiesFrom?, if_neg hu.1, if_neg hu.2,
      ih (fun m hm => h m (List.mem_cons_of_mem u hm)), List.reverse_cons, List.append_assoc,
      List.singleton_append]

/-- Where the groups have bodies, there are as many brackets of either kind as groups. -/
theorem count_of_groupBodiesFrom? {body? : Option (List Mark)} {ms : List Mark} {bodies : List (List Mark)}
    (h : groupBodiesFrom? body? ms = some bodies) :
    ms.count (.plain '(') + (if body?.isSome then 1 else 0) = bodies.length ∧
      ms.count (.plain ')') = bodies.length := by
  have hne : Mark.plain '(' ≠ .plain ')' := by decide
  induction ms generalizing body? bodies with
  | nil =>
    cases body? with
    | none =>
      rw [groupBodiesFrom?, Option.some.injEq] at h
      subst h
      exact ⟨rfl, rfl⟩
    | some body => exact absurd h (by simp [groupBodiesFrom?])
  | cons m ms ih =>
    cases body? with
    | none =>
      rw [groupBodiesFrom?] at h
      split_ifs at h with hopen hclose
      · rw [hopen, List.count_cons_self, List.count_cons_of_ne hne]
        exact ih h
      · rw [List.count_cons_of_ne hopen, List.count_cons_of_ne hclose]
        exact ih h
    | some body =>
      rw [groupBodiesFrom?] at h
      split_ifs at h with hopen hclose
      · obtain ⟨later, hlater, rfl⟩ := Option.map_eq_some_iff.mp h
        obtain ⟨hopened, hclosed⟩ := ih hlater
        rw [hclose, List.count_cons_self, List.count_cons_of_ne hne.symm, List.length_cons]
        exact ⟨congrArg (· + 1) hopened, congrArg (· + 1) hclosed⟩
      · have hrest := ih h
        rw [List.count_cons_of_ne hopen, List.count_cons_of_ne hclose]
        exact hrest

theorem count_of_groupBodies? {ms : List Mark} {bodies : List (List Mark)} (h : groupBodies? ms = some bodies) :
    ms.count (.plain '(') = bodies.length ∧ ms.count (.plain ')') = bodies.length := by
  simpa using count_of_groupBodiesFrom? h

end Bodies

namespace Pattern

def groupFree : Pattern → Bool
  | .empty | .set _ | .lineStart => true
  | .seq p q | .alt p q => p.groupFree && q.groupFree
  | .group _ _ => false
  | .star p _ | .plus p => p.groupFree

/-- Whether no group stands within another one. -/
def isFlat : Pattern → Bool
  | .empty | .set _ | .lineStart => true
  | .seq p q | .alt p q => p.isFlat && q.isFlat
  | .group _ p => p.groupFree
  | .star p _ | .plus p => p.isFlat

/-- The outermost groups of a pattern with their numbers, in the order in which they are written. -/
def groups : Pattern → List (Nat × Pattern)
  | .empty | .set _ | .lineStart => []
  | .seq p q | .alt p q => p.groups ++ q.groups
  | .group i p => [(i, p)]
  | .star p _ | .plus p => p.groups

theorem isBracket_of_mem_set {s : CharSet} : ∀ m ∈ marks s.source, m.isBracket = false := by
  cases s with
  | char c =>
    change ∀ m ∈ marks (escapedChar c), m.isBracket = false
    rw [marks_escapedChar]
    intro m hm
    rw [List.mem_singleton.mp hm]
    exact Mark.isBracket_ofChar c
  | tab | blankOrTab | space | any | inLine => decide

theorem marks_source_seq (p q : Pattern) : marks (seq p q).source = marks p.source ++ marks q.source :=
  marks_source_append p q.source

theorem marks_source_alt (p q : Pattern) :
    marks (alt p q).source = marks p.source ++ .plain '|' :: marks q.source := by
  rw [source, marks_source_append, marks_plain (by decide)]

theorem marks_source_group (i : Nat) (p : Pattern) :
    marks (group i p).source = .plain '(' :: (marks p.source ++ [.plain ')']) := by
  rw [source, List.cons_append, marks_plain (by decide), marks_source_append]
  rfl

theorem marks_source_star (p : Pattern) (lazily : Bool) : marks (star p lazily).source =
    marks p.source ++ .plain '*' :: if lazily then [.plain '?'] else [] := by
  rw [source, marks_source_append]
  cases lazily <;> rfl

theorem marks_source_plus (p : Pattern) : marks (plus p).source = marks p.source ++ [.plain '+'] := by
  rw [source, marks_source_append]
  rfl

theorem isBracket_of_groupFree {p : Pattern} (h : p.groupFree = true) :
    ∀ m ∈ marks p.source, m.isBracket = false := by
  induction p with
  | empty => simp [source, marks]
  | lineStart => decide
  | set s => exact isBracket_of_mem_set
  | seq p q ihp ihq =>
    simp only [groupFree, Bool.and_eq_true] at h
    rw [marks_source_seq, List.forall_mem_append]
    exact ⟨ihp h.1, ihq h.2⟩
  | alt p q ihp ihq =>
    simp only [groupFree, Bool.and_eq_true] at h
    rw [marks_source_alt, List.forall_mem_append, List.forall_mem_cons]
    exact ⟨ihp h.1, by decide, ihq h.2⟩
  | group i p => exact absurd h Bool.false_ne_true
  | star p lazily ih =>
    rw [marks_source_star, List.forall_mem_append]
    refine ⟨ih h, ?_⟩
    cases lazily <;> decide
  | plus p ih =>
    rw [marks_source_plus, List.forall_mem_append]
    exact ⟨ih h, by decide⟩

theorem groupBodiesFrom?_source {p : Pattern} (h : p.isFlat = true) (ms : List Mark) :
    groupBodiesFrom? none (marks p.source ++ ms) =
      (groupBodiesFrom? none ms).map ((p.groups.map fun g => marks g.2.source) ++ ·) := by
  induction p generalizing ms with
  | empty => simp [source, marks, groups]
  | lineStart =>
    rw [groupBodiesFrom?_outside (by decide)]
    simp [groups]
  | set s =>
    rw [source, groupBodiesFrom?_outside isBracket_of_mem_set]
    simp [groups]
  | seq p q ihp ihq =>
    simp only [isFlat, Bool.and_eq_true] at h
    rw [marks_source_seq, List.append_assoc, ihp h.1, ihq h.2]
    simp [groups, Function.comp_def]
  | alt p q ihp ihq =>
    simp only [isFlat, Bool.and_eq_true] at h
    have hfree : ∀ m ∈ [Mark.plain '|'], m.isBracket = false := by decide
    have hbar : ∀ us, groupBodiesFrom? none (.plain '|' :: us) = groupBodiesFrom? none us :=
      groupBodiesFrom?_outside hfree
    rw [marks_source_alt, List.append_assoc, List.cons_append, ihp h.1, hbar, ihq h.2]
    simp [groups, Function.comp_def]
  | group i p =>
    have hbody := groupBodiesFrom?_inside (isBracket_of_groupFree h) [] ms
    rw [marks_source_group, List.cons_append, List.append_assoc, List.singleton_append, groupBodiesFrom?,
      if_pos rfl, hbody]
    rfl
  | star p lazily ih =>
    have hsuffix : ∀ m ∈ Mark.plain '*' :: (if lazily then [.plain '?'] else []), m.isBracket = false := by
      cases lazily <;> decide
    rw [marks_source_star, List.append_assoc, ih h, groupBodiesFrom?_outside hsuffix]
    rfl
  | plus p ih =>
    rw [marks_source_plus, List.append_assoc, ih h, groupBodiesFrom?_outside (by decide)]
    rfl

/-- The groups that are seen in a written pattern are its groups. -/
theorem groupBodies?_source {p : Pattern} (h : p.isFlat = true) :
    groupBodies? (marks p.source) = some (p.groups.map fun g => marks g.2.source) := by
  have hsource := groupBodiesFrom?_source h []
  rwa [List.append_nil, groupBodiesFrom?, Option.map_some, List.append_nil] at hsource

section Texts

theorem marks_source_literal (w : List Char) : marks (literal w).source = w.map Mark.ofChar := by
  rw [source_literal, marks_escaped]

theorem groupFree_literal (w : List Char) : (literal w).groupFree = true := by
  induction w with
  | nil => rfl
  | cons c w ih =>
    cases w with
    | nil => rfl
    | cons d w => exact ih

theorem groupFree_oneOf (ts : List (List Char)) : (oneOf ts).groupFree = true := by
  induction ts with
  | nil => rfl
  | cons t ts ih =>
    cases ts with
    | nil => exact groupFree_literal t
    | cons u us =>
      rw [oneOf.eq_3 t (u :: us) (by simp), groupFree, groupFree_literal, ih]
      rfl

theorem marks_source_oneOf (ts : List (List Char)) :
    marks (oneOf ts).source = [Mark.plain '|'].intercalate (ts.map (·.map Mark.ofChar)) := by
  induction ts with
  | nil => rfl
  | cons t ts ih =>
    cases ts with
    | nil =>
      rw [oneOf, marks_source_literal, List.map_singleton, List.intercalate_singleton]
    | cons u us =>
      rw [oneOf.eq_3 t (u :: us) (by simp), marks_source_alt, marks_source_literal, ih]
      simp only [List.map_cons, List.intercalate_cons_cons, List.append_assoc, List.singleton_append]

/-- Cut at its bars, a choice between texts gives the texts back. -/
theorem splitOn_source_oneOf {ts : List (List Char)} (hne : ts ≠ []) :
    ((marks (oneOf ts).source).splitOn (.plain '|')).map Mark.text? = ts.map some := by
  have hbar : ∀ l ∈ ts.map (·.map Mark.ofChar), Mark.plain '|' ∉ l := by
    intro l hl hmem
    obtain ⟨t, -, rfl⟩ := List.mem_map.mp hl
    obtain ⟨c, -, hc⟩ := List.mem_map.mp hmem
    exact Mark.ofChar_ne (m := .plain '|') (by decide) c hc
  rw [marks_source_oneOf, List.splitOn_intercalate _ hbar (by simpa using hne), List.map_map]
  exact List.map_congr_left fun t _ => Mark.text?_map_ofChar t

end Texts

end Pattern

end CommentGrade
