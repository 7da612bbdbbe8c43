import CommentGrade.Json.Reader
import CommentGrade.Proofs.Value.Results
import Mathlib.Tactic.SplitIfs

/-!
# What a JSON document holds

The values of JSON are fewer than those a settings document may hold: there are no moments, bytes, tuples or sets among
them, and every key is a text.
-/
namespace CommentGrade

namespace Value

inductive IsJson : Value → Prop
  | null : IsJson .null
  | bool (b : Bool) : IsJson (.bool b)
  | int (n : Int) : IsJson (.int n)
  | float (x : Float) : IsJson (.float x)
  | str (s : String) : IsJson (.str s)
  | list {vs : List Value} : (∀ v ∈ vs, IsJson v) → IsJson (.list vs)
  | map {es : List (Value × Value)} :
      (∀ e ∈ es, ∃ key, e.1 = .str key) → (∀ e ∈ es, IsJson e.2) → IsJson (.map es)

theorem mem_of_lookup {key : String} {w : Value} {es : List (Value × Value)} (h : lookup key es = some w) :
    ∃ k, (k, w) ∈ es := by
  induction es with
  | nil => cases h
  | cons e es ih =>
    have hlater (hrest : lookup key es = some w) : ∃ k, (k, w) ∈ e :: es :=
      (ih hrest).imp fun k hk => List.mem_cons_of_mem e hk
    obtain ⟨l, v⟩ := e
    cases l with
    | str s =>
      rw [lookup] at h
      split_ifs at h
      · exact ⟨.str s, Option.some.inj h ▸ List.mem_cons_self⟩
      · exact hlater h
    | null | bool _ | int _ | float _ | moment _ | bytes _ | list _ | tuple _ | set _ | map _ => exact hlater h

theorem IsJson.get? {v w : Value} {key : String} (h : v.IsJson) (hget : v.get? key = some w) : w.IsJson := by
  cases h with
  | map _ hvalues =>
    obtain ⟨k, hk⟩ := mem_of_lookup hget
    exact hvalues _ hk
  | null | bool _ | int _ | float _ | str _ | list _ => cases hget

/-- Entries of a mapping of JSON. -/
def AreJson (es : List (Value × Value)) : Prop := ∀ e ∈ es, (∃ key, e.1 = .str key) ∧ IsJson e.2

theorem AreJson.isJson {es : List (Value × Value)} (hes : AreJson es) : (Value.map es).IsJson :=
  .map (fun e he => (hes e he).1) fun e he => (hes e he).2

theorem AreJson.put {key : String} {v : Value} {es : List (Value × Value)} (hes : AreJson es) (hv : v.IsJson) :
    AreJson (put key v es) := by
  induction es with
  | nil =>
    intro e he
    obtain rfl := List.mem_singleton.mp he
    exact ⟨⟨key, rfl⟩, hv⟩
  | cons e es ih =>
    obtain ⟨k, w⟩ := e
    have hfirst : (∃ key, k = .str key) ∧ IsJson w := hes _ List.mem_cons_self
    have hrest : AreJson es := fun e he => hes e (List.mem_cons_of_mem _ he)
    obtain ⟨⟨name, rfl⟩, hw⟩ := hfirst
    rw [Value.put]
    split_ifs
    · exact List.forall_mem_cons.mpr ⟨⟨⟨name, rfl⟩, hv⟩, hrest⟩
    · exact List.forall_mem_cons.mpr ⟨⟨⟨name, rfl⟩, hw⟩, ih hrest⟩

end Value

namespace Json

variable {cs rest : List Char} {v : Value}

theorem isJson_of_readNumber {negative : Bool} (h : readNumber negative cs = .ok (v, rest)) : v.IsJson := by
  dsimp only [readNumber] at h
  split_ifs at h
  · split at h
    · cases h
      exact .int _
    · cases h
  · cases h
    exact .float _

theorem isJson_of_readName (h : readName cs = .ok (v, rest)) : v.IsJson := by
  dsimp only [readName] at h
  split at h
  · next r hr =>
    cases h
    obtain ⟨e, he, hfound⟩ := List.exists_of_findSome?_eq_some hr
    obtain ⟨after, -, hafter⟩ := Option.map_eq_some_iff.mp hfound
    obtain ⟨rfl, rfl⟩ := Prod.mk.inj hafter
    simp only [List.mem_cons, List.not_mem_nil, or_false] at he
    rcases he with rfl | rfl | rfl | rfl | rfl | rfl <;> constructor
  · cases h

/-- What is read of a value, of items and of entries is JSON, if lists and mappings stand in each other at most so many
times. -/
structure ReadsJson (n : Nat) : Prop where
  value : ∀ {cs v rest}, readValue n cs = .ok (v, rest) → v.IsJson
  items : ∀ {cs vs rest}, readItems n cs = .ok (vs, rest) → ∀ v ∈ vs, v.IsJson
  entries : ∀ {es cs v rest}, Value.AreJson es → readEntries n es cs = .ok (v, rest) → v.IsJson

namespace ReadsJson

variable {n : Nat}

theorem value_succ (hn : ReadsJson n) (h : readValue (n + 1) cs = .ok (v, rest)) : v.IsJson := by
  unfold readValue at h
  split at h
  · obtain ⟨⟨s, after⟩, -, hs⟩ := bind_eq_ok_iff.mp h
    cases hs
    exact .str s
  · split at h
    · cases h
      exact .list nofun
    · obtain ⟨⟨vs, after⟩, hvs, hlist⟩ := bind_eq_ok_iff.mp h
      cases hlist
      exact .list (hn.items hvs)
  · split at h
    · cases h
      exact .map nofun nofun
    · have hnone : Value.AreJson [] := nofun
      exact hn.entries hnone h
  · split at h
    · exact isJson_of_readName h
    · exact isJson_of_readNumber h
  · split_ifs at h
    · exact isJson_of_readNumber h
    · exact isJson_of_readName h
  · cases h

theorem items_succ (hn : ReadsJson n) {vs : List Value} (h : readItems (n + 1) cs = .ok (vs, rest)) :
    ∀ v ∈ vs, v.IsJson := by
  unfold readItems at h
  obtain ⟨⟨v, after⟩, hv, htail⟩ := bind_eq_ok_iff.mp h
  dsimp only at htail
  split at htail
  · obtain ⟨⟨ws, last⟩, hws, hlist⟩ := bind_eq_ok_iff.mp htail
    cases hlist
    exact List.forall_mem_cons.mpr ⟨hn.value hv, hn.items hws⟩
  · cases htail
    exact List.forall_mem_cons.mpr ⟨hn.value hv, nofun⟩
  · cases htail

theorem entries_succ (hn : ReadsJson n) {es : List (Value × Value)} (hes : Value.AreJson es)
    (h : readEntries (n + 1) es cs = .ok (v, rest)) : v.IsJson := by
  unfold readEntries at h
  split at h
  · obtain ⟨⟨key, after⟩, -, hkey⟩ := bind_eq_ok_iff.mp h
    dsimp only at hkey
    split at hkey
    · obtain ⟨⟨w, later⟩, hw, htail⟩ := bind_eq_ok_iff.mp hkey
      have hput : Value.AreJson (Value.put key w es) := hes.put (hn.value hw)
      dsimp only at htail
      split at htail
      · exact hn.entries hput htail
      · cases htail
        exact hput.isJson
      · cases htail
    · cases hkey
  · cases h

end ReadsJson

theorem readsJson (n : Nat) : ReadsJson n := by
  induction n with
  | zero => exact ⟨nofun, nofun, nofun⟩
  | succ n hn => exact ⟨hn.value_succ, hn.items_succ, hn.entries_succ⟩

theorem isJson_of_read {s : String} (h : read s = .ok v) : v.IsJson := by
  obtain ⟨⟨w, rest⟩, hw, hend⟩ := bind_eq_ok_iff.mp h
  dsimp only at hend
  split_ifs at hend
  cases hend
  exact (readsJson _).value hw

/-- A document of JSON has no moment under any key. -/
theorem get?_ne_moment {s : String} (h : read s = .ok v) (key : String) (m : Moment) :
    v.get? key ≠ some (.moment m) :=
  fun hget => nomatch (isJson_of_read h).get? hget

end Json

end CommentGrade
