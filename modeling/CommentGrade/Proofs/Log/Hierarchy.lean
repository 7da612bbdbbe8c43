import CommentGrade.Log.Basic
import Mathlib.Data.List.TakeWhile

/-!
# Which loggers are below the main one

A part of the program whose name does not begin with a dot has a logger below the main one, whatever loggers there are and
in whichever order they were made. If its name begins with one dot, and not with two, then no order puts its logger below
the main one: the dot before it is passed over.
-/
namespace CommentGrade

open Log

theorem lookup_cons_eq_ite {A B : Type} [BEq A] [LawfulBEq A] [DecidableEq A] (key a : A) (b : B) (l : List (A × B)) :
    ((a, b) :: l).lookup key = if key = a then some b else l.lookup key := by
  rw [List.lookup_cons]
  split_ifs with h
  · rw [beq_iff_eq.mpr h]
  · rw [beq_eq_false_iff_ne.mpr h]

section Stems

theorem stemsFrom_cons_of_ne {c : Char} (hc : c ≠ '.') (t : List Char) : stemsFrom (c :: t) = stemsFrom t := by
  cases t with
  | nil => rfl
  | cons d t => rw [stemsFrom, if_neg hc]

theorem length_lt_of_mem_stemsFrom {r s : List Char} (h : s ∈ stemsFrom r) : s.length < r.length := by
  induction r using stemsFrom.induct with
  | case1 c rest ih =>
    rw [stemsFrom, if_pos rfl, List.mem_cons] at h
    rcases h with rfl | h
    · exact Nat.lt_succ_self _
    · exact Nat.lt_succ_of_lt (Nat.lt_succ_of_lt (ih h))
  | case2 d c rest hd ih =>
    rw [stemsFrom, if_neg hd] at h
    exact Nat.lt_succ_of_lt (ih h)
  | case3 => cases h
  | case4 => cases h

/-- From a character that is no dot on, the stems of a name that is read backwards do not depend on what comes before. -/
theorem mem_stemsFrom_append {c : Char} (hc : c ≠ '.') {t s : List Char} :
    ∀ u : List Char, s ∈ stemsFrom (u ++ c :: t) → (∃ v, s = v ++ c :: t) ∨ s ∈ stemsFrom t
  | [], h => by
    rw [List.nil_append, stemsFrom_cons_of_ne hc] at h
    exact .inr h
  | [x], h => by
    rw [List.singleton_append, stemsFrom] at h
    split_ifs at h with hx
    · rcases List.mem_cons.mp h with rfl | h
      · exact .inl ⟨[], rfl⟩
      · exact .inr h
    · rw [stemsFrom_cons_of_ne hc] at h
      exact .inr h
  | x :: y :: u, h => by
    rw [List.cons_append, List.cons_append, stemsFrom] at h
    split_ifs at h with hx
    · rcases List.mem_cons.mp h with rfl | h
      · exact .inl ⟨y :: u, rfl⟩
      · exact mem_stemsFrom_append hc u h
    · exact mem_stemsFrom_append hc (y :: u) h

theorem mem_stemsFrom_of_append {c : Char} (hc : c ≠ '.') {t s : List Char} (h : s ∈ stemsFrom t) :
    ∀ u : List Char, s ∈ stemsFrom (u ++ c :: t)
  | [] => by rwa [List.nil_append, stemsFrom_cons_of_ne hc]
  | [x] => by
    rw [List.singleton_append, stemsFrom, stemsFrom_cons_of_ne hc]
    split_ifs
    · exact List.mem_cons_of_mem _ h
    · exact h
  | x :: y :: u => by
    rw [List.cons_append, List.cons_append, stemsFrom]
    split_ifs
    · exact List.mem_cons_of_mem _ (mem_stemsFrom_of_append hc h u)
    · exact mem_stemsFrom_of_append hc h (y :: u)

variable {name s : String}

theorem mem_stems_iff : s ∈ stems name ↔ s.toList.reverse ∈ stemsFrom name.toList.reverse := by
  rw [stems, List.mem_map]
  constructor
  · rintro ⟨r, hr, rfl⟩
    rwa [String.toList_ofList, List.reverse_reverse]
  · intro h
    exact ⟨_, h, by rw [List.reverse_reverse, String.ofList_toList]⟩

theorem length_lt_of_mem_stems (h : s ∈ stems name) : s.length < name.length := by
  have hlt := length_lt_of_mem_stemsFrom (mem_stems_iff.mp h)
  rwa [List.length_reverse, List.length_reverse, String.length_toList, String.length_toList] at hlt

end Stems

section Names

/-- The name of the main logger, or one that goes on from it with a dot and a character that is none. -/
def Attached (name : String) : Prop :=
  name = mainName ∨ ∃ c t, c ≠ '.' ∧ name.toList = mainName.toList ++ '.' :: c :: t

/-- A name that goes on from that of the main logger with two dots and no third one. -/
def Detached (name : String) : Prop :=
  name.toList = mainName.toList ++ ['.', '.'] ∨
    ∃ c t, c ≠ '.' ∧ name.toList = mainName.toList ++ '.' :: '.' :: c :: t

/-- The name between those two, which no part of the program has. -/
def Dangling (name : String) : Prop := name.toList = mainName.toList ++ ['.']

variable {name s : String}

theorem stemsFrom_main : stemsFrom mainName.toList.reverse = [] := by decide +kernel

theorem stemsFrom_dot_main : stemsFrom ('.' :: mainName.toList.reverse) = [mainName.toList.reverse] := by decide +kernel

theorem stemsFrom_dot_dot_main :
    stemsFrom ('.' :: '.' :: mainName.toList.reverse) = ['.' :: mainName.toList.reverse] := by
  decide +kernel

theorem mem_stems_goesOn (dots : List Char) {t : List Char} {c : Char} (hc : c ≠ '.')
    (h : name.toList = mainName.toList ++ (dots ++ c :: t)) (hs : s ∈ stems name) :
    (∃ v, s.toList = mainName.toList ++ (dots ++ c :: v)) ∨
      s.toList.reverse ∈ stemsFrom (dots.reverse ++ mainName.toList.reverse) := by
  have hrev : name.toList.reverse = t.reverse ++ c :: (dots.reverse ++ mainName.toList.reverse) := by simp [h]
  rw [mem_stems_iff, hrev] at hs
  refine (mem_stemsFrom_append hc _ hs).imp ?_ id
  rintro ⟨v, hv⟩
  refine ⟨v.reverse, ?_⟩
  rw [← List.reverse_reverse s.toList, hv]
  simp

theorem attached_of_mem_stems (h : Attached name) (hs : s ∈ stems name) : Attached s := by
  rcases h with rfl | ⟨c, t, hc, h⟩
  · rw [mem_stems_iff, stemsFrom_main] at hs
    cases hs
  · rcases mem_stems_goesOn ['.'] hc h hs with ⟨v, hv⟩ | hs
    · exact .inr ⟨c, v, hc, hv⟩
    · have hmain : s.toList.reverse = mainName.toList.reverse := List.mem_singleton.mp (stemsFrom_dot_main ▸ hs)
      exact .inl (String.toList_injective (List.reverse_inj.mp hmain))

theorem main_mem_stems (h : Attached name) (hne : name ≠ mainName) : mainName ∈ stems name := by
  obtain ⟨c, t, hc, h⟩ := h.resolve_left hne
  have hrev : name.toList.reverse = t.reverse ++ c :: ('.' :: mainName.toList.reverse) := by simp [h]
  rw [mem_stems_iff, hrev]
  exact mem_stemsFrom_of_append hc (stemsFrom_dot_main ▸ List.mem_singleton_self _) _

theorem detached_of_mem_stems (h : Detached name) (hs : s ∈ stems name) : Detached s ∨ Dangling s := by
  have hdangling : s.toList.reverse ∈ stemsFrom ('.' :: '.' :: mainName.toList.reverse) → Dangling s := by
    intro hmem
    have hrev : s.toList.reverse = '.' :: mainName.toList.reverse :=
      List.mem_singleton.mp (stemsFrom_dot_dot_main ▸ hmem)
    rw [Dangling, ← List.reverse_reverse s.toList, hrev, List.reverse_cons, List.reverse_reverse]
  rcases h with h | ⟨c, t, hc, h⟩
  · rw [mem_stems_iff, h, List.reverse_append] at hs
    exact .inr (hdangling hs)
  · rcases mem_stems_goesOn ['.', '.'] hc h hs with ⟨v, hv⟩ | hs
    · exact .inl (.inr ⟨c, v, hc, hv⟩)
    · exact .inr (hdangling hs)

end Names

namespace Loggers

variable {ls : Loggers} {name n : String}

section Register

theorem has_iff : ls.has n = true ↔ ∃ place, ls.places.lookup n = some place := by
  rw [has, Option.isSome_iff_exists]

theorem register_of_has (h : ls.has name = true) : ls.register name = ls := if_pos h

/-- Making a logger moves another one below it or leaves it where it is. A waiting one at the top is moved. -/
theorem placeBelow_cases (ls : Loggers) (name n : String) (place : Option String) :
    (ls.placeBelow name (n, place) = (n, some name) ∧ (name, n) ∈ ls.waiting) ∨
      (ls.placeBelow name (n, place) = (n, place) ∧ ((name, n) ∈ ls.waiting → place.isSome = true)) := by
  unfold placeBelow
  split_ifs with h
  · rw [Bool.and_eq_true, List.contains_iff_mem] at h
    exact .inl ⟨rfl, h.1⟩
  · refine .inr ⟨rfl, fun hmem => ?_⟩
    cases place with
    | some p => rfl
    | none => exact absurd (by simpa using hmem) h

theorem lookup_placeBelow (ls : Loggers) (name n : String) (places : List (String × Option String)) :
    (places.map (ls.placeBelow name)).lookup n = (places.lookup n).map fun place => (ls.placeBelow name (n, place)).2 := by
  induction places with
  | nil => rfl
  | cons e places ih =>
    obtain ⟨m, place⟩ := e
    have hkey : ls.placeBelow name (m, place) = (m, (ls.placeBelow name (m, place)).2) := by
      rcases placeBelow_cases ls name m place with ⟨h, -⟩ | ⟨h, -⟩ <;> rw [h]
    rw [List.map_cons, hkey, lookup_cons_eq_ite, lookup_cons_eq_ite, ih]
    split_ifs with h
    · rw [h, Option.map_some]
    · rfl

theorem lookup_register (h : ls.has name = false) (n : String) : (ls.register name).places.lookup n =
    if n = name then some ((stems name).find? ls.has)
    else (ls.places.lookup n).map fun place => (ls.placeBelow name (n, place)).2 := by
  rw [register, if_neg (Bool.eq_false_iff.mp h), lookup_cons_eq_ite, lookup_placeBelow]

theorem has_register (ls : Loggers) (name n : String) : (ls.register name).has n = true ↔ n = name ∨ ls.has n = true := by
  cases h : ls.has name with
  | true =>
    rw [register_of_has h, iff_or_self]
    rintro rfl
    exact h
  | false =>
    rw [has, lookup_register h, has]
    split_ifs with hn
    · simp [hn]
    · rw [Option.isSome_map, or_iff_right hn]

end Register

/-- What holds of the loggers that parts of the program have. -/
structure Sound (ls : Loggers) : Prop where
  /-- A logger is below a logger whose name is among its stems. -/
  stem : ∀ n p, ls.parent? n = some p → p ∈ stems n ∧ ls.has p = true
  waits : ∀ w n, (w, n) ∈ ls.waiting → w ∈ stems n
  /-- An attached logger at the top was made before the main one, and waits for it. -/
  early : ∀ n, Attached n → n ≠ mainName → ls.places.lookup n = some none →
    ls.has mainName = false ∧ (mainName, n) ∈ ls.waiting
  named : ∀ n, ls.has n = true → ¬Dangling n

theorem sound_empty : Sound {} where
  stem _ _ h := by cases h
  waits _ _ h := by cases h
  early _ _ _ h := by cases h
  named _ h := by cases h

section Register

variable (hs : ls.Sound) (hnew : ls.has name = false)
include hs hnew

theorem Sound.stem_register {p : String} (h : (ls.register name).parent? n = some p) :
    p ∈ stems n ∧ (ls.register name).has p = true := by
  rw [parent?, lookup_register hnew] at h
  split_ifs at h with hn
  · obtain rfl := hn
    exact ⟨List.mem_of_find?_eq_some h, (has_register ls n p).mpr (.inr (List.find?_some h))⟩
  · cases hplace : ls.places.lookup n with
    | none =>
      rw [hplace] at h
      cases h
    | some place =>
      rw [hplace, Option.map_some, Option.join_some] at h
      rcases placeBelow_cases ls name n place with ⟨hmoved, hmem⟩ | ⟨hkept, -⟩
      · rw [hmoved] at h
        obtain rfl : name = p := Option.some.inj h
        exact ⟨hs.waits name n hmem, (has_register ls name name).mpr (.inl rfl)⟩
      · have hp : place = some p := by rwa [hkept] at h
        obtain ⟨hmem, hhas⟩ := hs.stem n p (by rw [parent?, hplace, Option.join_some, hp])
        exact ⟨hmem, (has_register ls name p).mpr (.inr hhas)⟩

theorem Sound.waits_register {w : String} (h : (w, n) ∈ (ls.register name).waiting) : w ∈ stems n := by
  rw [register, if_neg (Bool.eq_false_iff.mp hnew), List.mem_append, List.mem_filter, List.mem_map] at h
  rcases h with ⟨hmem, -⟩ | ⟨s, hmem, heq⟩
  · exact hs.waits w n hmem
  · obtain ⟨rfl, rfl⟩ := Prod.mk.inj heq
    exact (List.takeWhile_subset _) hmem

/-- If an attached logger is made at the top, there is no main logger; if it stays there, the new one is another. -/
theorem Sound.early_register (hn : Attached n) (hne : n ≠ mainName)
    (h : (ls.register name).places.lookup n = some none) :
    (ls.register name).has mainName = false ∧ (mainName, n) ∈ (ls.register name).waiting := by
  have hwaiting : (ls.register name).waiting = ls.waiting.filter (·.1 != name) ++
      ((stems name).takeWhile fun s => !ls.has s).map fun s => (s, name) := by
    rw [register, if_neg (Bool.eq_false_iff.mp hnew)]
  rw [hwaiting, List.mem_append, ← Bool.not_eq_true, has_register]
  rw [lookup_register hnew] at h
  split_ifs at h with hname
  · obtain rfl := hname
    have hnone : ∀ s ∈ stems n, ls.has s = false := by
      simpa using List.find?_eq_none.mp (Option.some.inj h)
    have hmain : mainName ∈ stems n := main_mem_stems hn hne
    have hall : ((stems n).takeWhile fun s => !ls.has s) = stems n :=
      List.takeWhile_eq_self_iff.mpr fun s hmem => by rw [hnone s hmem]; rfl
    refine ⟨by simp [Ne.symm hne, hnone mainName hmain], .inr ?_⟩
    rw [hall]
    exact List.mem_map.mpr ⟨mainName, hmain, rfl⟩
  · obtain ⟨place, hplace, hbelow⟩ := Option.map_eq_some_iff.mp h
    rcases placeBelow_cases ls name n place with ⟨hmoved, -⟩ | ⟨hkept, hwaits⟩
    · rw [hmoved] at hbelow
      cases hbelow
    · rw [hkept] at hbelow
      obtain rfl : place = none := hbelow
      obtain ⟨hmain, hmem⟩ := hs.early n hn hne hplace
      have hother : mainName ≠ name := by
        rintro rfl
        cases hwaits hmem
      exact ⟨by simp [hother, hmain], .inl (List.mem_filter.mpr ⟨hmem, bne_iff_ne.mpr hother⟩)⟩

end Register

theorem Sound.register (hs : ls.Sound) (hname : ¬Dangling name) : (ls.register name).Sound := by
  cases hnew : ls.has name with
  | true => rwa [register_of_has hnew]
  | false =>
    exact {
      stem := fun n p h => hs.stem_register hnew h
      waits := fun w n h => hs.waits_register hnew h
      early := fun n hn hne h => hs.early_register hnew hn hne h
      named := by
        intro n hn
        rcases (has_register ls name n).mp hn with rfl | hold
        · exact hname
        · exact hs.named n hold }

section Under

theorem isUnder_of_parent {top p : String} (hne : n ≠ top) (hp : ls.parent? n = some p) (hlt : p.length < n.length) :
    ls.isUnder top n = ls.isUnder top p := by
  rw [isUnder, if_neg hne, hp]
  exact if_pos hlt

theorem isUnder_of_top {top : String} (hne : n ≠ top) (hp : ls.parent? n = none) : ls.isUnder top n = false := by
  rw [isUnder, if_neg hne, hp]

/-- Once the main logger is made, all attached ones are below it. -/
theorem Sound.isUnder_of_attached (hs : ls.Sound) (hmain : ls.has mainName = true) {n : String} (hn : Attached n)
    (hhas : ls.has n = true) : ls.isUnder mainName n = true := by
  by_cases hne : n = mainName
  · rw [isUnder, if_pos hne]
  · cases hp : ls.parent? n with
    | none =>
      obtain ⟨place, hplace⟩ := has_iff.mp hhas
      obtain rfl : place = none := by rwa [parent?, hplace, Option.join_some] at hp
      obtain ⟨hnone, -⟩ := hs.early n hn hne hplace
      rw [hmain] at hnone
      cases hnone
    | some p =>
      obtain ⟨hstem, hhasp⟩ := hs.stem n p hp
      have hlt := length_lt_of_mem_stems hstem
      rw [isUnder_of_parent hne hp hlt]
      exact hs.isUnder_of_attached hmain (attached_of_mem_stems hn hstem) hhasp
termination_by n.length

theorem Sound.isUnder_of_detached (hs : ls.Sound) {n : String} (hn : Detached n) : ls.isUnder mainName n = false := by
  have hne : n ≠ mainName := by
    rintro rfl
    rcases hn with h | ⟨c, t, -, h⟩ <;> simpa using congrArg List.length h
  cases hp : ls.parent? n with
  | none => exact isUnder_of_top hne hp
  | some p =>
    obtain ⟨hstem, hhasp⟩ := hs.stem n p hp
    have hlt := length_lt_of_mem_stems hstem
    rw [isUnder_of_parent hne hp hlt]
    exact hs.isUnder_of_detached ((detached_of_mem_stems hn hstem).resolve_right (hs.named p hhasp))
termination_by n.length

end Under

end Loggers

end CommentGrade
