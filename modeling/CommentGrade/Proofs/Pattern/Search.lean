import CommentGrade.Proofs.Pattern.Place
import Mathlib.Data.List.Forall2
import Mathlib.Order.Monotone.Basic

/-!
# Searching a text from left to right

`hitsFrom` is a search in plain terms: go to the least offset that has a hit, take it, and go on where it ends, or one
offset further if it is empty. The matches of an expression are the hits of such a search if nothing more is found
where a match is empty.
-/
namespace CommentGrade

section Relations

variable {H K H' K' : Type} {R : H → K → Prop} {R' : H' → K' → Prop}

theorem rel_map {f : H → H'} {g : K → K'} {x : Option H} {y : Option K} (hrel : Option.Rel R x y)
    (h : ∀ a b, x = some a → R a b → R' (f a) (g b)) : Option.Rel R' (x.map f) (y.map g) := by
  cases hrel with
  | none => exact .none
  | some hab => exact .some (h _ _ rfl hab)

theorem rel_or {x x' : Option H} {y y' : Option K} (h : Option.Rel R x y) (h' : Option.Rel R x' y') :
    Option.Rel R (x.or x') (y.or y') := by
  cases h with
  | none => exact h'
  | some hab => exact .some hab

end Relations

section Hits

variable {H K : Type}

/-- The hits at an offset or later, each the first one behind its predecessor. -/
def hitsFrom (hit? : Nat → Option H) (stop : H → Nat) (length cursor : Nat) : List H :=
  if cursor ≤ length then
    match hit? cursor with
    | some h => h :: hitsFrom hit? stop length (max (cursor + 1) (stop h))
    | none => hitsFrom hit? stop length (cursor + 1)
  else []
termination_by length + 1 - cursor

variable {hit? : Nat → Option H} {stop : H → Nat} {length cursor : Nat}

theorem hitsFrom_of_lt (h : length < cursor) : hitsFrom hit? stop length cursor = [] := by
  rw [hitsFrom, if_neg (Nat.not_le.mpr h)]

theorem hitsFrom_of_none (h : hit? cursor = none) :
    hitsFrom hit? stop length cursor = hitsFrom hit? stop length (cursor + 1) := by
  by_cases hc : cursor ≤ length
  · rw [hitsFrom, if_pos hc, h]
  · rw [hitsFrom_of_lt (by omega), hitsFrom_of_lt (by omega)]

theorem hitsFrom_of_some (hc : cursor ≤ length) {m : H} (h : hit? cursor = some m) :
    hitsFrom hit? stop length cursor =
      m :: hitsFrom hit? stop length (max (cursor + 1) (stop m)) := by
  rw [hitsFrom, if_pos hc, h]

theorem hitsFrom_of_nones {next : Nat} (hle : cursor ≤ next) (h : ∀ i, cursor ≤ i → i < next → hit? i = none) :
    hitsFrom hit? stop length cursor = hitsFrom hit? stop length next := by
  induction next, hle using Nat.le_induction with
  | base => rfl
  | succ n hn ih =>
    rw [ih fun i hi hlt => h i hi (Nat.lt_succ_of_lt hlt), hitsFrom_of_none (h n hn (Nat.lt_succ_self n))]

theorem hitsFrom_map (f : H → K) (stop : H → Nat) (stop' : K → Nat)
    (hstop : ∀ h, stop' (f h) = stop h) :
    (hitsFrom hit? stop length cursor).map f =
      hitsFrom (fun i => (hit? i).map f) stop' length cursor := by
  induction cursor using hitsFrom.induct hit? stop length with
  | case1 c hc m hm ih =>
    rw [hitsFrom_of_some hc hm, hitsFrom_of_some (m := f m) hc (by rw [hm]; rfl), List.map_cons, ih,
      hstop]
  | case2 c hc hm ih =>
    have hnext : hitsFrom (fun i => (hit? i).map f) stop' length c =
        hitsFrom (fun i => (hit? i).map f) stop' length (c + 1) :=
      hitsFrom_of_none (by rw [hm, Option.map_none])
    rw [hitsFrom_of_none hm, hnext, ih]
  | case3 c hc =>
    rw [hitsFrom_of_lt (Nat.not_le.mp hc), hitsFrom_of_lt (Nat.not_le.mp hc), List.map_nil]

theorem hitsFrom_congr {hit?' : Nat → Option H} (h : ∀ i ≤ length, hit? i = hit?' i) :
    hitsFrom hit? stop length cursor = hitsFrom hit?' stop length cursor := by
  induction cursor using hitsFrom.induct hit? stop length with
  | case1 c hc m hm ih => rw [hitsFrom_of_some hc hm, hitsFrom_of_some hc (h c hc ▸ hm), ih]
  | case2 c hc hm ih =>
    have hm' : hit?' c = none := h c hc ▸ hm
    rw [hitsFrom_of_none hm, ih, hitsFrom_of_none hm']
  | case3 c hc => rw [hitsFrom_of_lt (Nat.not_le.mp hc), hitsFrom_of_lt (Nat.not_le.mp hc)]

/-- Where no hit up to a seam leads beyond it, the search begins anew behind the seam. -/
theorem hitsFrom_append {hit?' : Nat → Option H} {seam : Nat} (hseam : seam ≤ length)
    (hhit : ∀ i ≤ seam, hit? i = hit?' i) (hstop : ∀ i ≤ seam, ∀ m, hit?' i = some m → stop m ≤ seam + 1)
    (hcursor : cursor ≤ seam + 1) : hitsFrom hit? stop length cursor =
      hitsFrom hit?' stop seam cursor ++ hitsFrom hit? stop length (seam + 1) := by
  induction cursor using hitsFrom.induct hit?' stop seam with
  | case1 c hc m hm ih =>
    have hle := hstop c hc m hm
    have hm' : hit? c = some m := (hhit c hc).trans hm
    rw [hitsFrom_of_some (Nat.le_trans hc hseam) hm', hitsFrom_of_some hc hm, List.cons_append,
      ih (by omega)]
  | case2 c hc hm ih =>
    have hm' : hit? c = none := (hhit c hc).trans hm
    rw [hitsFrom_of_none hm', hitsFrom_of_none hm, ih (by omega)]
  | case3 c hc =>
    have hlast : c = seam + 1 := by omega
    rw [hlast, hitsFrom_of_lt (Nat.lt_succ_self seam), List.nil_append]

theorem hitsFrom_moved {hit?' : Nat → Option H} {moved : H → H} {distance : Nat}
    (hhit : ∀ i, hit? (distance + i) = (hit?' i).map moved) (hstop : ∀ m, stop (moved m) = distance + stop m) :
    hitsFrom hit? stop (distance + length) (distance + cursor) = (hitsFrom hit?' stop length cursor).map moved := by
  induction cursor using hitsFrom.induct hit?' stop length with
  | case1 c hc m hm ih =>
    have hm' : hit? (distance + c) = some (moved m) := by rw [hhit, hm, Option.map_some]
    have hnext : max (distance + c + 1) (stop (moved m)) = distance + max (c + 1) (stop m) := by
      rw [hstop, Nat.add_assoc, Nat.add_max_add_left]
    rw [hitsFrom_of_some (Nat.add_le_add_left hc distance) hm', hitsFrom_of_some hc hm, List.map_cons, hnext, ih]
  | case2 c hc hm ih =>
    have hm' : hit? (distance + c) = none := by rw [hhit, hm, Option.map_none]
    rw [hitsFrom_of_none hm', hitsFrom_of_none hm, Nat.add_assoc, ih]
  | case3 c hc =>
    rw [hitsFrom_of_lt (by omega), hitsFrom_of_lt (Nat.not_le.mp hc), List.map_nil]

/-- Two searches, the second one in a text with more characters: each offset of the first has its place in the second,
and nothing is found in between. If what is found at an offset is related to what is found at its place, and the places
where the searches go on correspond, the hits are related one by one. -/
theorem forall₂_hitsFrom {R : H → K → Prop} {hit?' : Nat → Option K} {stop' : K → Nat} {length' : Nat} {place : Nat → Nat}
    (hlt : ∀ i, place i < place (i + 1)) (hend : ∀ i, place i ≤ length' ↔ i ≤ length)
    (hhit : ∀ i, Option.Rel R (hit? i) (hit?' (place i)))
    (hbetween : ∀ i j, place i < j → j < place (i + 1) → hit?' j = none)
    (hstop : ∀ i h h', hit? i = some h → R h h' → i < stop h ∧ stop' h' = place (stop h)) :
    List.Forall₂ R (hitsFrom hit? stop length cursor) (hitsFrom hit?' stop' length' (place cursor)) := by
  have hmono : StrictMono place := strictMono_nat_of_lt_succ hlt
  induction cursor using hitsFrom.induct hit? stop length with
  | case1 c hc h hh ih =>
    have hrel := hhit c
    rw [hh] at hrel
    cases hh' : hit?' (place c) with
    | none =>
      rw [hh'] at hrel
      cases hrel
    | some h' =>
      rw [hh'] at hrel
      cases hrel with
      | some hR =>
        obtain ⟨hpos, hplace⟩ := hstop c h h' hh hR
        have hnext : max (c + 1) (stop h) = stop h := by omega
        have hnext' : max (place c + 1) (stop' h') = place (stop h) := by
          have := hmono hpos
          omega
        rw [hitsFrom_of_some hc hh, hitsFrom_of_some ((hend c).mpr hc) hh', hnext']
        rw [hnext] at ih ⊢
        exact .cons hR ih
  | case2 c hc hh ih =>
    have hrel := hhit c
    rw [hh] at hrel
    have hh' : hit?' (place c) = none := by
      cases hh' : hit?' (place c) with
      | none => rfl
      | some h' =>
        rw [hh'] at hrel
        cases hrel
    have hskip : hitsFrom hit?' stop' length' (place c + 1) = hitsFrom hit?' stop' length' (place (c + 1)) :=
      hitsFrom_of_nones (hlt c) fun j hj hj' => hbetween c j hj hj'
    rw [hitsFrom_of_none hh, hitsFrom_of_none hh', hskip]
    exact ih
  | case3 c hc =>
    have hc' : ¬ place c ≤ length' := fun h => hc ((hend c).mp h)
    rw [hitsFrom_of_lt (Nat.not_le.mp hc), hitsFrom_of_lt (Nat.not_le.mp hc')]
    exact .nil

theorem exists_of_mem_hitsFrom {m : H} (h : m ∈ hitsFrom hit? stop length cursor) :
    ∃ i, cursor ≤ i ∧ i ≤ length ∧ hit? i = some m := by
  induction cursor using hitsFrom.induct hit? stop length with
  | case1 c hc n hn ih =>
    rw [hitsFrom_of_some hc hn, List.mem_cons] at h
    rcases h with rfl | h
    · exact ⟨c, Nat.le_refl c, hc, hn⟩
    · obtain ⟨i, hi, hle, hm⟩ := ih h
      exact ⟨i, by omega, hle, hm⟩
  | case2 c hc hn ih =>
    rw [hitsFrom_of_none hn] at h
    obtain ⟨i, hi, hle, hm⟩ := ih h
    exact ⟨i, by omega, hle, hm⟩
  | case3 c hc =>
    rw [hitsFrom_of_lt (Nat.not_le.mp hc)] at h
    exact absurd h List.not_mem_nil

/-- A later hit is found where or after an earlier one ends. -/
theorem pairwise_hitsFrom : (hitsFrom hit? stop length cursor).Pairwise
    fun a b => ∃ i, stop a ≤ i ∧ i ≤ length ∧ hit? i = some b := by
  induction cursor using hitsFrom.induct hit? stop length with
  | case1 c hc m hm ih =>
    rw [hitsFrom_of_some hc hm, List.pairwise_cons]
    refine ⟨?_, ih⟩
    intro b hb
    obtain ⟨i, hi, hle, hib⟩ := exists_of_mem_hitsFrom hb
    exact ⟨i, by omega, hle, hib⟩
  | case2 c hc hm ih => rwa [hitsFrom_of_none hm]
  | case3 c hc =>
    rw [hitsFrom_of_lt (Nat.not_le.mp hc)]
    exact List.Pairwise.nil

end Hits

section Results

variable {H K L : Type}

theorem filterMap_eq_of_map_eq {hs : List H} {ks : List K} {f : H → L} {g : K → L}
    (h : hs.map f = ks.map g) {R : Type} {p : H → Option R} {q : K → Option R}
    (hpq : ∀ a, ∀ b ∈ ks, f a = g b → p a = q b) : hs.filterMap p = ks.filterMap q := by
  induction hs generalizing ks with
  | nil =>
    have hnil : ks = [] := List.map_eq_nil_iff.mp h.symm
    rw [hnil, List.filterMap_nil, List.filterMap_nil]
  | cons a hs ih =>
    obtain ⟨b, bs, rfl, hab, hrest⟩ := List.map_eq_cons_iff.mp h.symm
    have hlater := ih hrest.symm fun a b hb => hpq a b (List.mem_cons_of_mem _ hb)
    rw [List.filterMap_cons, List.filterMap_cons, hpq a b List.mem_cons_self hab.symm, hlater]

theorem sublist_map_filterMap {f : H → Option K} {key : H → L} {key' : K → L}
    (h : ∀ a b, f a = some b → key' b = key a) (l : List H) : ((l.filterMap f).map key').Sublist (l.map key) := by
  induction l with
  | nil => exact List.Sublist.refl []
  | cons a l ih =>
    rw [List.filterMap_cons, List.map_cons]
    cases hb : f a with
    | none => exact ih.cons (key a)
    | some b =>
      rw [List.map_cons, h a b hb]
      exact ih.cons_cons (key a)

theorem findSome?_congr {f g : H → Option K} {l : List H} (h : ∀ a ∈ l, f a = g a) : l.findSome? f = l.findSome? g := by
  rw [← List.head?_filterMap, ← List.head?_filterMap, List.filterMap_congr h]

theorem findSome?_filter {f : H → Option K} {p : H → Bool} (h : ∀ a, p a = false → f a = none)
    (l : List H) : (l.filter p).findSome? f = l.findSome? f := by
  rw [← List.head?_filterMap, ← List.head?_filterMap, List.filterMap_filter]
  congr 2
  funext a
  cases hp : p a with
  | true => rfl
  | false => exact (h a hp).symm

theorem findSome?_eraseDups [BEq H] [LawfulBEq H] (f : H → Option K) (l : List H) :
    l.eraseDups.findSome? f = l.findSome? f := by
  induction hn : l.length using Nat.strongRecOn generalizing l with
  | ind n ih =>
    cases l with
    | nil => rfl
    | cons a l =>
      have hlt : (l.filter fun b => !b == a).length < n := by
        have hle := List.length_filter_le (fun b => !b == a) l
        rw [List.length_cons] at hn
        omega
      rw [List.eraseDups_cons, List.findSome?_cons, List.findSome?_cons, ih _ hlt _ rfl]
      cases ha : f a with
      | some b => rfl
      | none =>
        apply findSome?_filter
        intro b hb
        obtain rfl : b = a := by simpa using hb
        exact ha

end Results

namespace Expression

variable {e : Expression} {cs : List Char}

/-- Where an empty match is the only one, the matches at an offset are at most one. -/
theorem matchesAt_eq_toList {cur : Cursor}
    (h : ∀ m, e.matchAt? false cur = some m → m.span.stop = cur.offset → e.matchAt? true cur = none) :
    e.matchesAt cur = (e.matchAt? false cur).toList := by
  unfold matchesAt
  cases hm : e.matchAt? false cur with
  | none => rfl
  | some m =>
    by_cases hstop : m.span.stop = cur.offset
    · simp [hstop, h m hm hstop]
    · simp [hstop]

theorem matchesFrom_eq_hitsFrom
    (h : ∀ i ≤ cs.length, ∀ m, e.matchAt? false (.inText cs i) = some m → m.span.stop = i →
      e.matchAt? true (.inText cs i) = none) {i : Nat} (hi : i ≤ cs.length) (resume : Nat) :
    e.matchesFrom (cs.take i).getLast? i resume (cs.drop i) =
      hitsFrom (fun i => e.matchAt? false (.inText cs i)) (·.span.stop) cs.length
        (max i resume) := by
  -- offsets before `resume` are passed without a look, so the search is at the later of the two
  induction hrest : cs.drop i generalizing i resume with
  | nil =>
    have hlen : i = cs.length := by
      have := congrArg List.length hrest
      simp only [List.length_drop, List.length_nil] at this
      omega
    have hcur : (⟨(cs.take i).getLast?, i, []⟩ : Cursor) = .inText cs i := by
      rw [Cursor.inText, hrest]
    rw [matchesFrom]
    split_ifs with hlt
    · rw [hitsFrom_of_lt (by omega)]
    · rw [hcur, matchesAt_eq_toList (h i hi), Nat.max_eq_left (Nat.not_lt.mp hlt)]
      cases hm : e.matchAt? false (.inText cs i) with
      | none => rw [hitsFrom_of_none hm, hitsFrom_of_lt (by omega)]; rfl
      | some m => rw [hitsFrom_of_some hi hm, hitsFrom_of_lt (by omega)]; rfl
  | cons c rest ih =>
    have hlt : i < cs.length := by
      have := congrArg List.length hrest
      simp only [List.length_drop, List.length_cons] at this
      omega
    have hnext := Cursor.inText_succ hrest
    have hbefore : (cs.take (i + 1)).getLast? = some c := congrArg Cursor.before hnext
    have htail : cs.drop (i + 1) = rest := congrArg Cursor.rest hnext
    have hcur : (⟨(cs.take i).getLast?, i, c :: rest⟩ : Cursor) = .inText cs i := by
      rw [Cursor.inText, hrest]
    have hgo : ∀ r, e.matchesFrom (some c) (i + 1) r rest =
        hitsFrom (fun i => e.matchAt? false (.inText cs i)) (·.span.stop) cs.length
          (max (i + 1) r) := by
      intro r
      rw [← hbefore]
      exact ih hlt r htail
    rw [matchesFrom]
    split_ifs with hres
    · rw [hgo, Nat.max_eq_right (Nat.succ_le_of_lt hres), Nat.max_eq_right (Nat.le_of_lt hres)]
    · have hmax : max i resume = i := Nat.max_eq_left (Nat.not_lt.mp hres)
      simp only [hcur, matchesAt_eq_toList (h i hi), hgo, hmax]
      cases hm : e.matchAt? false (.inText cs i) with
      | none =>
        simp only [Option.toList_none, List.nil_append, List.getLast?_nil, Option.map_none,
          Option.getD_none, Nat.max_eq_left (show resume ≤ i + 1 by omega)]
        exact (hitsFrom_of_none hm).symm
      | some m =>
        rw [hitsFrom_of_some hi hm]
        simp

/-- All matches are the hits of one search. -/
theorem matchesIn_eq_hitsFrom
    (h : ∀ i ≤ cs.length, ∀ m, e.matchAt? false (.inText cs i) = some m → m.span.stop = i →
      e.matchAt? true (.inText cs i) = none) :
    e.matchesIn cs =
      hitsFrom (fun i => e.matchAt? false (.inText cs i)) (·.span.stop) cs.length 0 :=
  matchesFrom_eq_hitsFrom h (Nat.zero_le _) 0

end Expression

end CommentGrade
