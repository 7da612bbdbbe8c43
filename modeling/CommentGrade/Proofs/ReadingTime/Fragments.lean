import CommentGrade.ReadingTime
import Mathlib.Data.List.TakeWhile
import Mathlib.Tactic.SplitIfs

/-!
# Fragments of markup

A text is read from left to right: where a fragment begins it is deleted, and elsewhere a character is kept. Which
characters remain does not depend on anything else, so what is behind a place of the text remains as if the text began
there, unless the place is within a deleted fragment.
-/
namespace CommentGrade.ReadingTime

/-- A fragment and the text behind it: an opening bracket and a blank, at least one character, none a closing bracket,
and the last opening bracket before the next closing one or, if there is none, before the end. -/
inductive IsFragment : List Char → List Char → Prop
  | mk {inner rest : List Char} : inner ≠ [] → '>' ∉ inner → '<' ∉ rest.takeWhile (· != '>') →
      IsFragment ('<' :: ' ' :: (inner ++ ['<'])) rest

/-- Whether no fragment begins at the start of a text. -/
def NoFragment (cs : List Char) : Prop := ∀ f rest, cs = f ++ rest → ¬IsFragment f rest

/-- What is kept of a text while it is read up to a rest of it. -/
inductive Scans (cs : List Char) : List Char → List Char → Prop
  | start : Scans cs [] cs
  | keep {kept : List Char} {c : Char} {rest : List Char} :
      Scans cs kept (c :: rest) → NoFragment (c :: rest) → Scans cs (kept ++ [c]) rest
  | delete {kept f rest : List Char} : Scans cs kept (f ++ rest) → IsFragment f rest → Scans cs kept rest

theorem noFragment_or_exists (cs : List Char) : NoFragment cs ∨ ∃ f rest, cs = f ++ rest ∧ IsFragment f rest := by
  rw [or_iff_not_imp_left]
  intro hsome
  simpa only [NoFragment, not_forall, exists_prop, not_not] using hsome

/-- A text is empty, or it goes on behind a character that no fragment begins with, or behind a fragment. -/
theorem fragment_induction {P : List Char → Prop} (nil : P [])
    (keep : ∀ c rest, NoFragment (c :: rest) → P rest → P (c :: rest))
    (delete : ∀ f rest, IsFragment f rest → P rest → P (f ++ rest)) (cs : List Char) : P cs := by
  induction hn : cs.length using Nat.strongRecOn generalizing cs with
  | ind n ih =>
    cases cs with
    | nil => exact nil
    | cons c cs =>
      rcases noFragment_or_exists (c :: cs) with hnone | ⟨f, rest, heq, hf⟩
      · exact keep c cs hnone (ih cs.length (hn ▸ Nat.lt_succ_self _) cs rfl)
      · rw [heq] at hn ⊢
        refine delete f rest hf (ih rest.length ?_ rest rfl)
        cases hf
        simp only [List.length_append, List.length_cons] at hn
        omega

section LastBracket

variable {a b cs : List Char}

theorem lastBracket_of_not_mem (h : '<' ∉ cs) : lastBracket cs = 0 := by
  have hall : cs.reverse.takeWhile (· != '<') = cs.reverse := by
    rw [List.takeWhile_eq_self_iff]
    intro x hx
    rw [bne_iff_ne]
    exact fun heq => h (heq ▸ List.mem_reverse.mp hx)
  rw [lastBracket, hall, List.length_reverse, Nat.sub_self]

theorem lastBracket_append (h : '<' ∉ b) : lastBracket (a ++ '<' :: b) = a.length + 1 := by
  have hback : (a ++ '<' :: b).reverse.takeWhile (· != '<') = b.reverse := by
    rw [List.reverse_append, List.reverse_cons, List.append_assoc, List.takeWhile_append_of_pos]
    · simp
    · intro x hx
      rw [bne_iff_ne]
      exact fun heq => h (heq ▸ List.mem_reverse.mp hx)
  rw [lastBracket, hback, List.length_append, List.length_cons, List.length_reverse]
  omega

theorem exists_lastBracket (h : '<' ∈ cs) : ∃ a b, cs = a ++ '<' :: b ∧ '<' ∉ b := by
  obtain ⟨a, b, heq, hnot⟩ := List.eq_append_cons_of_mem (List.mem_reverse.mpr h)
  refine ⟨b.reverse, a.reverse, ?_, fun hmem => hnot (List.mem_reverse.mp hmem)⟩
  rw [← List.reverse_reverse cs, heq, List.reverse_append, List.reverse_cons, List.append_assoc, List.singleton_append]

theorem lastBracket_eq_zero_iff : lastBracket cs = 0 ↔ '<' ∉ cs := by
  constructor
  · intro hzero hmem
    obtain ⟨a, b, rfl, hb⟩ := exists_lastBracket hmem
    rw [lastBracket_append hb] at hzero
    cases hzero
  · exact lastBracket_of_not_mem

theorem lastBracket_cons (c : Char) (cs : List Char) :
    lastBracket (c :: cs) =
      if lastBracket cs = 0 then (if c = '<' then 1 else 0) else lastBracket cs + 1 := by
  by_cases hmem : '<' ∈ cs
  · obtain ⟨a, b, rfl, hb⟩ := exists_lastBracket hmem
    rw [← List.cons_append, lastBracket_append hb, lastBracket_append hb]
    rfl
  · rw [lastBracket_of_not_mem hmem, if_pos rfl]
    split_ifs with hc
    · subst hc
      exact lastBracket_append (a := []) hmem
    · exact lastBracket_of_not_mem (List.not_mem_cons_of_ne_of_not_mem (Ne.symm hc) hmem)

theorem lastBracket_takeWhile_iff {n : Nat} : lastBracket (cs.takeWhile (· != '>')) = n + 1 ↔
    ∃ a b, cs = a ++ '<' :: b ∧ '>' ∉ a ∧ '<' ∉ b.takeWhile (· != '>') ∧ a.length = n := by
  induction cs generalizing n with
  | nil => exact ⟨nofun, fun ⟨a, b, heq, _⟩ => absurd heq.symm (List.append_ne_nil_of_right_ne_nil a nofun)⟩
  | cons c cs ih =>
    by_cases hc : c = '>'
    · subst hc
      refine ⟨nofun, fun ⟨a, b, heq, ha, _⟩ => ?_⟩
      cases a with
      | nil => cases heq
      | cons x a => exact absurd ((List.cons.inj heq).1 ▸ List.mem_cons_self) ha
    · have hopen : (c != '>') = true := bne_iff_ne.mpr hc
      rw [List.takeWhile_cons, if_pos hopen, lastBracket_cons]
      constructor
      · intro h
        split_ifs at h with hzero hopen
        · obtain rfl := Nat.succ.inj h
          exact ⟨[], cs, by rw [hopen]; rfl, nofun, lastBracket_eq_zero_iff.mp hzero, rfl⟩
        · obtain ⟨m, rfl⟩ : ∃ m, n = m + 1 := ⟨n - 1, by omega⟩
          obtain ⟨a, b, rfl, ha, hb, rfl⟩ := ih.mp (Nat.succ.inj h)
          exact ⟨c :: a, b, rfl, List.not_mem_cons_of_ne_of_not_mem (Ne.symm hc) ha, hb, rfl⟩
      · rintro ⟨a, b, heq, ha, hb, rfl⟩
        cases a with
        | nil =>
          obtain ⟨rfl, rfl⟩ := List.cons.inj heq
          rw [if_pos (lastBracket_of_not_mem hb), if_pos rfl]
          rfl
        | cons x a =>
          obtain ⟨rfl, rfl⟩ := List.cons.inj heq
          rw [ih.mpr ⟨a, b, rfl, List.not_mem_of_not_mem_cons ha, hb, rfl⟩]
          rfl

end LastBracket

section Fragments

variable {cs f rest kept : List Char} {c : Char}

theorem fragmentRest?_eq_some_iff_lastBracket {n : Nat} : fragmentRest? cs = some n ↔
    ∃ c tail m, cs = ' ' :: c :: tail ∧ c ≠ '>' ∧ lastBracket (tail.takeWhile (· != '>')) = m + 1 ∧ n = m + 3 := by
  constructor
  · intro h
    unfold fragmentRest? at h
    split at h
    next tail =>
      cases tail with
      | nil => cases h
      | cons c tail =>
        by_cases hc : c = '>'
        · subst hc
          cases h
        · have hopen : (c != '>') = true := bne_iff_ne.mpr hc
          simp only [List.takeWhile_cons, hopen, if_true] at h
          split_ifs at h with hzero
          obtain ⟨m, hm⟩ := Nat.exists_eq_succ_of_ne_zero hzero
          rw [hm] at h
          exact ⟨c, tail, m, rfl, hc, hm, (Option.some.inj h).symm⟩
    next => cases h
  · rintro ⟨c, tail, m, rfl, hc, hm, rfl⟩
    have hopen : (c != '>') = true := bne_iff_ne.mpr hc
    simp only [fragmentRest?, List.takeWhile_cons, hopen, if_true, hm]
    rfl

theorem noFragment_of_ne {c : Char} (hc : c ≠ '<') (rest : List Char) : NoFragment (c :: rest) := by
  intro f tail heq hf
  cases hf
  exact hc (List.cons.inj heq).1

/-- The length of a fragment is found from the characters behind its first bracket. -/
theorem fragmentRest?_eq_some_iff {n : Nat} : fragmentRest? cs = some n ↔
    ∃ f rest, cs = f ++ rest ∧ IsFragment ('<' :: f) rest ∧ f.length = n := by
  rw [fragmentRest?_eq_some_iff_lastBracket]
  constructor
  · rintro ⟨c, tail, m, rfl, hc, hm, rfl⟩
    obtain ⟨a, b, rfl, ha, hb, rfl⟩ := lastBracket_takeWhile_iff.mp hm
    refine ⟨' ' :: (c :: a ++ ['<']), b, by simp, ?_, by simp⟩
    exact .mk (List.cons_ne_nil c a) (List.not_mem_cons_of_ne_of_not_mem (Ne.symm hc) ha) hb
  · rintro ⟨f, rest, rfl, hf, rfl⟩
    obtain ⟨hinner, hopen, hlast⟩ := hf
    obtain ⟨c, a, rfl⟩ := List.exists_cons_of_ne_nil hinner
    refine ⟨c, a ++ '<' :: rest, a.length, by simp, (List.ne_of_not_mem_cons hopen).symm, ?_, by simp⟩
    exact lastBracket_takeWhile_iff.mpr ⟨a, rest, rfl, List.not_mem_of_not_mem_cons hopen, hlast, rfl⟩

theorem dropFragments_eq_drop (n : Nat) (cs : List Char) : dropFragments n cs = dropFragments 0 (cs.drop n) := by
  induction cs generalizing n with
  | nil => cases n <;> rfl
  | cons c cs ih =>
    cases n with
    | zero => rfl
    | succ n => exact ih n

theorem length_dropFragments_le (n : Nat) (cs : List Char) : (dropFragments n cs).length ≤ cs.length := by
  induction cs generalizing n with
  | nil => cases n <;> exact Nat.le_refl 0
  | cons c cs ih =>
    cases n with
    | succ n => exact Nat.le_succ_of_le (ih n)
    | zero =>
      rw [dropFragments]
      split
      · exact Nat.le_succ_of_le (ih _)
      · exact Nat.succ_le_succ (ih 0)

theorem dropFragments_append (h : IsFragment f rest) : dropFragments 0 (f ++ rest) = dropFragments 0 rest := by
  obtain ⟨g, rfl⟩ : ∃ g, f = '<' :: g := by
    cases h
    exact ⟨_, rfl⟩
  have hlength : fragmentRest? (g ++ rest) = some g.length := fragmentRest?_eq_some_iff.mpr ⟨g, rest, rfl, h, rfl⟩
  rw [List.cons_append, dropFragments, if_pos rfl, hlength]
  simp only
  rw [dropFragments_eq_drop, List.drop_left]

theorem dropFragments_cons (h : NoFragment (c :: rest)) :
    dropFragments 0 (c :: rest) = c :: dropFragments 0 rest := by
  have hnot : (if c = '<' then fragmentRest? rest else none) = none := by
    rw [ite_eq_right_iff, Option.eq_none_iff_forall_ne_some]
    intro hc n hn
    subst hc
    obtain ⟨f, tail, rfl, hf, -⟩ := fragmentRest?_eq_some_iff.mp hn
    exact h _ tail rfl hf
  rw [dropFragments, hnot]

theorem dropFragments_of_not_mem (h : '<' ∉ cs) : dropFragments 0 cs = cs := by
  induction cs with
  | nil => rfl
  | cons c cs ih =>
    have hc : ¬c = '<' := (List.ne_of_not_mem_cons h).symm
    rw [dropFragments, if_neg hc, ih (List.not_mem_of_not_mem_cons h)]

/-- What remains of a text is what is kept of it up to a place and what remains of the text from there on. -/
theorem Scans.dropFragments_eq (h : Scans cs kept rest) : dropFragments 0 cs = kept ++ dropFragments 0 rest := by
  induction h with
  | start => rfl
  | keep _ hnone ih => rw [ih, dropFragments_cons hnone, List.append_assoc, List.singleton_append]
  | delete _ hf ih => rw [ih, dropFragments_append hf]

theorem Scans.exists_end (h : Scans cs kept rest) : ∃ all, Scans cs all [] := by
  induction rest using fragment_induction generalizing kept with
  | nil => exact ⟨kept, h⟩
  | keep c rest hnone ih => exact ih (h.keep hnone)
  | delete f rest hf ih => exact ih (h.delete hf)

/-- Reading a text to its end keeps what remains of it, and nothing else can be kept. -/
theorem scans_end_iff : Scans cs kept [] ↔ kept = dropFragments 0 cs := by
  have hkept : ∀ {all}, Scans cs all [] → dropFragments 0 cs = all := fun h => by
    rw [h.dropFragments_eq]
    exact List.append_nil _
  constructor
  · intro h
    exact (hkept h).symm
  · rintro rfl
    have hstart : Scans cs [] cs := .start
    obtain ⟨all, hall⟩ := hstart.exists_end
    rwa [hkept hall]

end Fragments

end CommentGrade.ReadingTime
