import CommentGrade.Proofs.Comment.LineScan
import CommentGrade.Proofs.Pattern.Reader
import CommentGrade.Value.Basic

/-!
# The written form of comment patterns

Delimiters and tags are put into the expressions for comments as escaped text. Whatever they are, the written
expression has the same four groups with the same numbers, the delimiters and tags can be read off from their bodies,
and the whole is read back as a pattern that is matched in the same way.
-/
namespace CommentGrade.Comment

open Pattern

/-- A pattern whose written form has groups with these bodies, numbered from 1 in order and not within each other, and
is read as a pattern that is matched in the same way. -/
structure HasGroups (p : Pattern) (bodies : List (List Mark)) : Prop where
  bodies_eq : groupBodies? (marks p.source) = some bodies
  count_opening : (marks p.source).count (.plain '(') = bodies.length
  count_closing : (marks p.source).count (.plain ')') = bodies.length
  numbers_eq : p.groups.map (·.1) = List.range' 1 bodies.length
  read : ∃ q, Pattern.read? p.source = some q ∧ q.MatchedAs p

theorem hasGroups_of_isFlat {p q : Pattern} {n : Nat} (hflat : p.isFlat = true)
    (hnumbers : p.groups.map (·.1) = List.range' 1 n) (hread : Pattern.read? p.source = some q)
    (hmatched : q.MatchedAs p) : HasGroups p (p.groups.map fun g => marks g.2.source) := by
  have hbodies := groupBodies?_source hflat
  have hcount := count_of_groupBodies? hbodies
  have hlength : p.groups.length = n := by simpa using congrArg List.length hnumbers
  refine ⟨hbodies, hcount.1, hcount.2, ?_, q, hread, hmatched⟩
  rw [hnumbers, List.length_map, hlength]

section Parts

theorem addsParts_delimiters (w : List Char) :
    AddsParts (marks (Pattern.plus (.group 1 (literal w))).source) 0 1 [.plus (.group 1 (literal w))] :=
  (addsChoices_literal w 1).group.plus rfl

theorem addsParts_gap : AddsParts (marks gap.source) 1 2 [gap] := by
  have hchoices : AddsChoices (marks (Pattern.alt (.set (.char ' ')) (.set .tab)).source) 2 2
      [.set (.char ' '), .set .tab] := by
    rw [marks_source_alt]
    exact (addsParts_set (.char ' ') 2).choices.bar (addsParts_set .tab 2).choices
  exact hchoices.group.star rfl false

theorem addsParts_tagClause (tags : List String) : AddsParts (marks (tagClause tags).source) 2 3 [tagClause tags] := by
  rw [tagClause_eq]
  split_ifs with hnil
  · exact (addsParts_empty 3).choices.group
  · have h := (addsChoices_oneOf hnil 3).group
    rw [firstOf_literals] at h
    exact h.star rfl false

theorem addsParts_lineRest : AddsParts (marks lineRest.source) 3 4 [lineRest] :=
  ((addsParts_set .inLine 4).star rfl false).choices.group

end Parts

section Line

variable (w : List Char) (tags : List String)

theorem read?_delimiterLine : Pattern.read?
    (inOrder (delimiterHead (String.ofList w) ++ [tagClause tags, lineRest])).source =
      some (inOrder (delimiterHead (String.ofList w) ++ [tagClause tags, lineRest])) := by
  have h := (addsParts_delimiters (String.ofList w).toList).seq
    (addsParts_gap.seq ((addsParts_tagClause tags).seq addsParts_lineRest))
  exact h.choices.read?

theorem groups_delimiterLine :
    (inOrder (delimiterHead (String.ofList w) ++ [tagClause tags, lineRest])).groups =
      [(1, literal (String.ofList w).toList), (2, .alt (.set (.char ' ')) (.set .tab)),
        (3, oneOf (tagTexts tags)), (4, .star (.set .inLine) false)] := by
  have htags : (tagClause tags).groups = [(3, oneOf (tagTexts tags))] := by
    rw [tagClause_eq]
    split_ifs with hnil
    · rw [hnil]
      rfl
    · rfl
  change _ ++ (_ ++ ((tagClause tags).groups ++ _)) = _
  rw [htags]
  rfl

theorem isFlat_delimiterLine :
    (inOrder (delimiterHead (String.ofList w) ++ [tagClause tags, lineRest])).isFlat = true := by
  have htags : (tagClause tags).isFlat = true := by
    rw [tagClause_eq]
    split_ifs with hnil
    · rfl
    · exact groupFree_oneOf _
  have hdelimiter : (Pattern.plus (.group 1 (literal (String.ofList w).toList))).isFlat = true :=
    groupFree_literal _
  change ((Pattern.plus _).isFlat && (gap.isFlat && ((tagClause tags).isFlat && lineRest.isFlat))) = true
  rw [hdelimiter, htags]
  rfl

theorem hasGroups_delimiterLine :
    HasGroups (inOrder (delimiterHead (String.ofList w) ++ [tagClause tags, lineRest]))
      [w.map Mark.ofChar, marks " |\\t".toList, marks (oneOf (tagTexts tags)).source,
        marks "[^\\r\\n]*".toList] := by
  have hgroups := groups_delimiterLine w tags
  have h := hasGroups_of_isFlat (n := 4) (isFlat_delimiterLine w tags) (by rw [hgroups]; rfl)
    (read?_delimiterLine w tags) (fun _ _ _ => rfl)
  rw [hgroups] at h
  simp only [List.map_cons, List.map_nil, String.toList_ofList, marks_source_literal] at h
  exact h

end Line

section Block

theorem run_inOrder_concat {α : Type} (caseless everyLine : Bool) (ps : List Pattern) (q : Pattern) :
    ((inOrder (ps ++ [q])).run caseless everyLine : Cursor → Captures → Next α → Option α) =
      (Pattern.seq (inOrder ps) q).run caseless everyLine := by
  induction ps with
  | nil => rfl
  | cons p ps ih =>
    cases ps with
    | nil => rfl
    | cons p' ps =>
      funext cur caps next
      rw [List.cons_append, inOrder.eq_3 p (p' :: ps ++ [q]) (by simp), inOrder.eq_3 p (p' :: ps) (by simp)]
      simp only [run, ih]

theorem matchedAs_enclosed {o o' : Pattern} (h : o.MatchedAs o') (closing : String) :
    (enclosed o closing).MatchedAs (enclosed o' closing) := by
  intro α caseless everyLine
  funext cur caps next
  simp only [enclosed, inOrder, run, h α]

variable (d : Delimiters)

theorem read?_blockPattern : Pattern.read? (blockPattern d).source = some
    (enclosed (inOrder ((d.opening.toList.map fun c => .set (.char c)) ++ [.set .space])) d.closing) := by
  have hhead : AddsParts (marks (Pattern.group 1 (.alt .lineStart (.set .blankOrTab))).source) 0 1
      [.group 1 (.alt .lineStart (.set .blankOrTab))] := by
    have hchoices : AddsChoices (marks (Pattern.alt .lineStart (.set .blankOrTab)).source) 1 1
        [.lineStart, .set .blankOrTab] := by
      rw [marks_source_alt]
      exact (addsParts_lineStart 1).choices.bar (addsParts_set .blankOrTab 1).choices
    exact hchoices.group
  have hopener : AddsParts (marks (Pattern.plus (.group 2
      (inOrder [literal d.opening.toList, .set .space]))).source) 1 2
      [.plus (.group 2 (inOrder ((d.opening.toList.map fun c => .set (.char c)) ++ [.set .space])))] := by
    have hunit : AddsChoices (marks (inOrder [literal d.opening.toList, .set .space]).source) 2 2
        [inOrder ((d.opening.toList.map fun c => .set (.char c)) ++ [.set .space])] := by
      have hchars := addsParts_chars d.opening.toList 2
      rw [← marks_source_literal] at hchars
      exact (AddsParts.seq hchars (addsParts_set .space 2)).choices
    have hgroup := hunit.group
    refine ⟨?_⟩
    intro e around
    rw [marks_source_plus, List.foldlM_append, hgroup.foldlM_eq]
    rfl
  have hbody : AddsParts (marks (Pattern.group 3 (.star (.set .any) true)).source) 2 3
      [.group 3 (.star (.set .any) true)] := ((addsParts_set .any 3).star rfl true).choices.group
  have hcloser : AddsParts (marks (Pattern.group 4 (literal d.closing.toList)).source) 3 4
      [.group 4 (literal d.closing.toList)] := (addsChoices_literal d.closing.toList 4).group
  exact (AddsParts.seq hhead (AddsParts.seq hopener (AddsParts.seq hbody hcloser))).choices.read?

theorem hasGroups_blockPattern : HasGroups (blockPattern d)
    [marks "^|[ \\t]".toList, d.opening.toList.map Mark.ofChar ++ marks "[\\s]".toList, marks "[\\s\\S]*?".toList,
      d.closing.toList.map Mark.ofChar] := by
  have hflat : (blockPattern d).isFlat = true := by
    change (true && ((literal d.opening.toList).groupFree && true) &&
      (true && (literal d.closing.toList).groupFree)) = true
    rw [groupFree_literal, groupFree_literal]
    rfl
  have hmatched : (enclosed (inOrder ((d.opening.toList.map fun c => .set (.char c)) ++ [.set .space]))
      d.closing).MatchedAs (blockPattern d) := by
    refine matchedAs_enclosed ?_ d.closing
    intro α caseless everyLine
    rw [run_inOrder_concat, inOrder_chars]
    rfl
  have hnumbers : (blockPattern d).groups.map (·.1) = List.range' 1 4 := rfl
  have h := hasGroups_of_isFlat hflat hnumbers (read?_blockPattern d) hmatched
  have hgroups : (blockPattern d).groups = [(1, .alt .lineStart (.set .blankOrTab)),
      (2, .seq (literal d.opening.toList) (.set .space)), (3, .star (.set .any) true),
      (4, literal d.closing.toList)] := rfl
  rw [hgroups] at h
  simp only [List.map_cons, List.map_nil, marks_source_literal, marks_source_seq] at h
  exact h

end Block

/-- Of the expressions for line comments and for blocks, the written form has four groups; the delimiters and the tags,
which may be any values, can be read off from them. A text that is written with escapes is read as that text alone. -/
theorem hasGroups_of_delimiters (profile : Profile) (values : List Value) (plainText : Bool) (delimiter : String)
    (d : Delimiters) (hplain : (profile.plainText && plainText) = false) (hd : profile.lineDelimiter = some delimiter)
    (hne : delimiter ≠ "") :
    let tags := ((values.map Value.text).filter (· != "")).eraseDups
    (∃ p b₁ b₂ b₃ b₄, linePattern? profile (values.map Value.text) plainText = some p ∧
      HasGroups p [b₁, b₂, b₃, b₄] ∧ Mark.text? b₁ = some delimiter.toList ∧ (tags = [] → b₃ = []) ∧
      (tags ≠ [] → (b₃.splitOn (.plain '|')).map Mark.text? = tags.map fun t => some t.toList)) ∧
    (∃ b₁ b₂ b₃ b₄, HasGroups (blockPattern d) [b₁, b₂ ++ marks "[\\s]".toList, b₃, b₄] ∧
      Mark.text? b₂ = some d.opening.toList ∧ Mark.text? b₄ = some d.closing.toList) ∧
    ∀ w, ∃ q, Pattern.read? (escaped w) = some q ∧
      ∀ everyLine cs, q.matchesWhole false everyLine cs = true ↔ cs = w := by
  intro tags
  refine ⟨?_, ?_, ?_⟩
  · have hhead : LineHead.ofProfile? profile plainText = some (.delimiter delimiter.toList) := by
      simp [LineHead.ofProfile?, hplain, hd, Option.filter, hne]
    have hline := LineHead.linePattern?_eq profile (values.map Value.text) plainText
    rw [hhead, Option.map_some] at hline
    have htexts : tagTexts (values.map Value.text) = tags.map String.toList := rfl
    refine ⟨_, _, _, _, _, hline, hasGroups_delimiterLine delimiter.toList (values.map Value.text),
      Mark.text?_map_ofChar _, ?_, ?_⟩
    · intro hnil
      rw [htexts, hnil]
      rfl
    · intro hsome
      have hne : tags.map String.toList ≠ [] := by simpa using hsome
      rw [htexts, splitOn_source_oneOf hne, List.map_map]
      rfl
  · exact ⟨_, _, _, _, hasGroups_blockPattern d, Mark.text?_map_ofChar _, Mark.text?_map_ofChar _⟩
  · intro w
    exact ⟨literal w, read?_escaped w, fun everyLine cs => matchesWhole_literal everyLine w cs⟩

/-- Operators in a delimiter and in tags, which need not be texts, change nothing. -/
theorem hasGroups_of_delimiters_operators :
    let profile := Profile.line "(*"
    let values : List Value := [.str "a|b", .null, .str "", .str "\\", .list [.int 5], .str "a|b"]
    (profile.plainText && true) = false ∧ profile.lineDelimiter = some "(*" ∧ "(*" ≠ "" ∧
      ∃ p b₁ b₂ b₃ b₄, linePattern? profile (values.map Value.text) true = some p ∧
        HasGroups p [b₁, b₂, b₃, b₄] ∧ Mark.text? b₁ = some "(*".toList ∧
        (b₃.splitOn (.plain '|')).map Mark.text? =
          [some "a|b".toList, some "None".toList, some "\\".toList, some "[5]".toList] := by
  intro profile values
  refine ⟨rfl, rfl, by decide, ?_⟩
  have h := (hasGroups_of_delimiters profile values true "(*" ⟨"(*", "*)"⟩ rfl rfl (by decide)).1
  obtain ⟨p, b₁, b₂, b₃, b₄, hline, hgroups, hdelimiter, -, htags⟩ := h
  refine ⟨p, b₁, b₂, b₃, b₄, hline, hgroups, hdelimiter, ?_⟩
  have hvalues : ((values.map Value.text).filter (· != "")).eraseDups = ["a|b", "None", "\\", "[5]"] := by
    decide +kernel
  rw [htags (by rw [hvalues]; simp), hvalues]
  rfl

end CommentGrade.Comment
