import CommentGrade.Path
import CommentGrade.Proofs.Text.Lines
import Mathlib.Tactic.SplitIfs

/-!
# Texts of paths

A path is read from a text and has a text. Reading drops what says nothing, so the text of a path that was read need not
be the text it was read from; but it is read as the same path again, and so is the text of every path below it.
-/
namespace CommentGrade.Path

/-- A component that stands for itself in the text of a path. -/
def IsComponent (s : String) : Prop := s ≠ "" ∧ s ≠ "." ∧ '/' ∉ s.toList

/-- A path as it is read from a text. -/
structure Plain (p : Path) : Prop where
  root : p.root = "" ∨ p.root = "/" ∨ p.root = "//"
  parts : ∀ q ∈ p.parts, IsComponent q

/-- The path that names lead to, starting at another one. -/
def below (p : Path) (names : List String) : Path := { p with parts := p.parts ++ names }

@[simp] theorem below_child (p : Path) (name : String) (names : List String) :
    (p.child name).below names = p.below (name :: names) := by
  simp [below, child]

theorem child_eq_below (p : Path) (name : String) : p.child name = p.below [name] := rfl

theorem below_injective (p : Path) : Function.Injective p.below := by
  intro as bs h
  exact List.append_cancel_left (Path.mk.inj h).2

theorem Plain.below {p : Path} (h : p.Plain) {names : List String} (hnames : ∀ n ∈ names, IsComponent n) :
    (p.below names).Plain where
  root := h.root
  parts q hq := (List.mem_append.mp hq).elim (h.parts q) (hnames q)

section Components

theorem components_ofList (cs : List Char) :
    components (String.ofList cs) =
      ((cs.splitOnP (· == '/')).map String.ofList).filter fun p => p != "" && p != "." := by
  rw [components, String.toList_ofList]

theorem components_slash (cs : List Char) :
    components (String.ofList ('/' :: cs)) = components (String.ofList cs) := by
  rw [components_ofList, components_ofList, List.splitOnP_cons_eq_if_modifyHead, if_pos (by rfl), List.map_cons,
    List.filter_cons_of_neg (by decide)]

theorem isComponent_of_mem_components {s q : String} (h : q ∈ components s) : IsComponent q := by
  obtain ⟨hmem, hkept⟩ := List.mem_filter.mp h
  obtain ⟨cs, hcs, rfl⟩ := List.mem_map.mp hmem
  simp only [Bool.and_eq_true, bne_iff_ne] at hkept
  refine ⟨hkept.1, hkept.2, ?_⟩
  intro hslash
  rw [String.toList_ofList] at hslash
  exact absurd (Text.not_of_mem_splitOnP hcs '/' hslash) (by decide)

theorem plain_ofString (s : String) : (ofString s).Plain where
  root := by
    unfold ofString rootOf
    split <;> simp
  parts _ := isComponent_of_mem_components

/-- Components with slashes between them are read as they are. -/
theorem components_intercalate {parts : List String} (h : ∀ q ∈ parts, IsComponent q) :
    components ("/".intercalate parts) = parts := by
  cases parts with
  | nil => decide
  | cons q qs =>
    have hslash : ∀ l ∈ (q :: qs).map String.toList, '/' ∉ l := by
      intro l hl
      obtain ⟨part, hpart, rfl⟩ := List.mem_map.mp hl
      exact (h part hpart).2.2
    have hsplit := List.splitOn_intercalate '/' hslash (by simp)
    rw [components, String.toList_intercalate]
    change List.filter _ (List.map String.ofList (List.splitOn '/' (['/'].intercalate _))) = _
    rw [hsplit, List.map_map, List.filter_eq_self.mpr]
    · simp [Function.comp_def]
    · intro part hmem
      have hpart := h part (by simpa [Function.comp_def] using hmem)
      simp [hpart.1, hpart.2.1]

theorem takeWhile_intercalate {parts : List String} (h : ∀ q ∈ parts, IsComponent q) :
    ("/".intercalate parts).toList.takeWhile (· == '/') = [] := by
  cases parts with
  | nil => rfl
  | cons q qs =>
    obtain ⟨hne, -, hslash⟩ := h q List.mem_cons_self
    obtain ⟨c, cs, hq⟩ := List.exists_cons_of_ne_nil (mt String.toList_eq_nil_iff.mp hne)
    have hc : (c == '/') = false := by
      rw [beq_eq_false_iff_ne]
      rintro rfl
      exact hslash (hq ▸ List.mem_cons_self)
    cases qs with
    | nil => simp [hq, hc]
    | cons r rs => simp [String.toList_intercalate, hq, hc]

end Components

theorem ofString_text {p : Path} (h : p.Plain) : ofString p.text = p := by
  obtain ⟨root, parts⟩ := p
  obtain ⟨hroot, hparts⟩ := h
  dsimp only at hroot hparts
  by_cases hdot : root = "" ∧ parts = []
  · obtain ⟨rfl, rfl⟩ := hdot
    decide
  · have hbody := takeWhile_intercalate hparts
    have hcomponents := components_intercalate hparts
    have htext : (Path.mk root parts).text = String.ofList (root.toList ++ ("/".intercalate parts).toList) := by
      rw [text, if_neg hdot, ← String.toList_append, String.ofList_toList]
    rw [← String.ofList_toList (s := "/".intercalate parts)] at hcomponents
    rw [htext, ofString]
    generalize ("/".intercalate parts).toList = body at hbody hcomponents
    rcases hroot with rfl | rfl | rfl
    · change Path.mk (rootOf (String.ofList body)) (components (String.ofList body)) = _
      rw [hcomponents]
      simp [rootOf, hbody]
    · change Path.mk _ (components (String.ofList ('/' :: body))) = _
      rw [components_slash, hcomponents]
      simp [rootOf, hbody]
    · change Path.mk _ (components (String.ofList ('/' :: '/' :: body))) = _
      rw [components_slash, components_slash, hcomponents]
      simp [rootOf, hbody]

end CommentGrade.Path
