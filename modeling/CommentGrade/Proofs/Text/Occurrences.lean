import CommentGrade.Proofs.Pattern.Reader
import CommentGrade.Proofs.Pattern.Search
import CommentGrade.Text.Blank

/-!
# The occurrences of a word

The occurrences of a word in a text, from left to right without overlap: each is the first one behind its predecessor.
Where it begins, an occurrence is one character of the word after the other.
-/
namespace CommentGrade.Text

/-- The occurrences of a word from an offset on. -/
def occurrencesFrom (w cs : List Char) (i : Nat) : List Nat :=
  hitsFrom (fun j => if occursAt false (exactly w) cs j then some j else none) (· + w.length) cs.length i

def occurrences (w cs : List Char) : List Nat := occurrencesFrom w cs 0

variable {w cs : List Char} {i j k : Nat}

theorem getElem?_of_occursAt (h : occursAt false (exactly w) cs i = true) (hk : k < w.length) :
    cs[i + k]? = some w[k] := by
  have htake : (cs.drop i).take w.length = w := Pattern.occursAt_exactly_iff.mp h
  calc
    cs[i + k]? = (cs.drop i)[k]? := List.getElem?_drop.symm
    _ = ((cs.drop i).take w.length)[k]? := (List.getElem?_take_of_lt hk).symm
    _ = some w[k] := by rw [htake, List.getElem?_eq_getElem hk]

/-- An occurrence of a word without white space has none among its characters. -/
theorem occursAt_eq_false_of_blank (hw : ∀ c ∈ w, isBlank c = false) (hblank : cs[j]?.any isBlank = true) (hij : i ≤ j)
    (hj : j < i + w.length) : occursAt false (exactly w) cs i = false := by
  rw [← Bool.not_eq_true]
  intro hocc
  have hlt : j - i < w.length := by omega
  have hchar := getElem?_of_occursAt hocc hlt
  rw [Nat.add_sub_cancel' hij] at hchar
  rw [hchar, Option.any_some, hw _ (List.getElem_mem hlt)] at hblank
  cases hblank

theorem infix_of_occursAt {v : List Char} (hw : occursAt false (exactly w) cs i = true)
    (hv : occursAt false (exactly v) cs j = true) (hij : i ≤ j) (hlen : j + v.length ≤ i + w.length) : v <:+: w := by
  have hw' : (cs.drop i).take w.length = w := Pattern.occursAt_exactly_iff.mp hw
  have hv' : (cs.drop j).take v.length = v := Pattern.occursAt_exactly_iff.mp hv
  have hpart : (w.drop (j - i)).take v.length = v := by
    calc
      (w.drop (j - i)).take v.length = (((cs.drop i).take w.length).drop (j - i)).take v.length := by rw [hw']
      _ = ((cs.drop j).take (w.length - (j - i))).take v.length := by
        rw [List.drop_take, List.drop_drop, Nat.add_sub_cancel' hij]
      _ = (cs.drop j).take v.length := by rw [List.take_take, Nat.min_eq_left (by omega)]
      _ = v := hv'
  rw [← hpart]
  exact (List.take_prefix _ _).isInfix.trans (List.drop_suffix _ _).isInfix

theorem isLineStart_succ {c : Char} (hc : cs[i]? = some c) : isLineStart cs (i + 1) = (c == '\n') := by
  simp [isLineStart, List.take_add_one, hc]

section Lists

theorem occurrencesFrom_of_not (h : occursAt false (exactly w) cs i = false) :
    occurrencesFrom w cs i = occurrencesFrom w cs (i + 1) := by
  apply hitsFrom_of_none
  rw [h, if_neg Bool.false_ne_true]

theorem occurrencesFrom_of_occursAt (hne : w ≠ []) (h : occursAt false (exactly w) cs i = true) :
    occurrencesFrom w cs i = i :: occurrencesFrom w cs (i + w.length) := by
  have hpos := List.length_pos_iff.mpr hne
  have hle := length_le_of_occursAt (exactly_ne_nil hne) h
  have hi : i ≤ cs.length := Nat.le_trans (Nat.le_add_right _ _) hle
  have hmax : max (i + 1) (i + w.length) = i + w.length := by omega
  rw [occurrencesFrom, hitsFrom_of_some hi (if_pos h), hmax]
  rfl

theorem occurrencesFrom_of_first (hne : w ≠ []) (h : occursAt false (exactly w) cs j = true) (hij : i ≤ j)
    (hfirst : ∀ k, i ≤ k → k < j → occursAt false (exactly w) cs k = false) :
    occurrencesFrom w cs i = j :: occurrencesFrom w cs (j + w.length) := by
  have hnone : ∀ k, i ≤ k → k < j → (if occursAt false (exactly w) cs k then some k else none) = none := by
    intro k hik hkj
    rw [hfirst k hik hkj, if_neg Bool.false_ne_true]
  rw [occurrencesFrom, hitsFrom_of_nones hij hnone]
  exact occurrencesFrom_of_occursAt hne h

theorem occurrencesFrom_eq_nil (h : ∀ k, i ≤ k → k ≤ cs.length → occursAt false (exactly w) cs k = false) :
    occurrencesFrom w cs i = [] := by
  rw [List.eq_nil_iff_forall_not_mem]
  intro m hmem
  obtain ⟨k, hik, hk, hhit⟩ := exists_of_mem_hitsFrom hmem
  rw [h k hik hk, if_neg Bool.false_ne_true] at hhit
  cases hhit

end Lists

end CommentGrade.Text
