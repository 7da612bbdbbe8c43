import CommentGrade.Proofs.Json.Contents
import CommentGrade.Proofs.Json.Numerals
import CommentGrade.Proofs.Json.Strings

/-!
# Documents that are read back

What is written of a value is read as that value: texts, integers, lists and mappings come back as they are, in their order,
and each float as one that depends on nothing else. The keys of a mapping have to be different, and no integer may be too
long to be read.
-/
namespace CommentGrade

open Number

namespace Value

mutual

/-- A value with other floats. -/
def mapFloats (g : Float → Float) : Value → Value
  | .float x => .float (g x)
  | .list vs => .list (mapFloatsItems g vs)
  | .map es => .map (mapFloatsEntries g es)
  | v => v

def mapFloatsItems (g : Float → Float) : List Value → List Value
  | [] => []
  | v :: vs => mapFloats g v :: mapFloatsItems g vs

def mapFloatsEntries (g : Float → Float) : List (Value × Value) → List (Value × Value)
  | [] => []
  | (k, v) :: es => (k, mapFloats g v) :: mapFloatsEntries g es

end

/-- A value that a document can hold. -/
inductive Writable : Value → Prop
  | null : Writable .null
  | bool (b : Bool) : Writable (.bool b)
  | int {m : Int} : m.natAbs < 10 ^ maxDigits → Writable (.int m)
  | float (x : Float) : Writable (.float x)
  | str (s : String) : Writable (.str s)
  | list {vs : List Value} : (∀ v ∈ vs, Writable v) → Writable (.list vs)
  | object {entries : List (String × Value)} : (entries.map (·.1)).Nodup → (∀ e ∈ entries, Writable e.2) →
      Writable (.object entries)

theorem mapFloats_list (g : Float → Float) (vs : List Value) : mapFloats g (.list vs) = .list (vs.map (mapFloats g)) := by
  have hitems : mapFloatsItems g vs = vs.map (mapFloats g) := by
    induction vs with
    | nil => rfl
    | cons v vs ih => rw [mapFloatsItems, ih, List.map_cons]
  rw [mapFloats, hitems]

theorem mapFloats_object (g : Float → Float) (entries : List (String × Value)) :
    mapFloats g (.object entries) = .object (entries.map fun e => (e.1, mapFloats g e.2)) := by
  have hentries : mapFloatsEntries g (entries.map fun e => (.str e.1, e.2)) =
      entries.map fun e => (.str e.1, mapFloats g e.2) := by
    induction entries with
    | nil => rfl
    | cons e entries ih => rw [List.map_cons, mapFloatsEntries, ih, List.map_cons]
  rw [object, mapFloats, hentries, object, List.map_map]
  rfl

theorem put_of_not_mem {key : String} {v : Value} {entries : List (String × Value)} (h : key ∉ entries.map (·.1)) :
    put key v (entries.map fun e => (.str e.1, e.2)) = (entries ++ [(key, v)]).map fun e => (.str e.1, e.2) := by
  induction entries with
  | nil => rfl
  | cons e entries ih =>
    rw [List.map_cons, List.mem_cons, not_or] at h
    rw [List.map_cons, put, if_neg (Ne.symm h.1), ih h.2]
    rfl

end Value

namespace Json

variable {cs gap behind rest : List Char} {n : Nat}

def AreSpaces (cs : List Char) : Prop := ∀ c ∈ cs, isSpace c = true

/-- A text that starts with no white space, and with no bracket that closes a list or a mapping. -/
def Begins (cs : List Char) : Prop := ∃ c ds, cs = c :: ds ∧ isSpace c = false ∧ c ≠ ']' ∧ c ≠ '\x7d'

section Spaces

theorem Begins.append (h : Begins cs) (rest : List Char) : Begins (cs ++ rest) := by
  obtain ⟨c, ds, rfl, hc⟩ := h
  exact ⟨c, ds ++ rest, rfl, hc⟩

theorem skipSpaces_cons {c : Char} (hc : isSpace c = false) (cs : List Char) : skipSpaces (c :: cs) = c :: cs := by
  rw [skipSpaces, List.dropWhile_cons_of_neg (by simp [hc])]

theorem skipSpaces_of_begins (h : Begins cs) : skipSpaces cs = cs := by
  obtain ⟨c, ds, rfl, hc, -⟩ := h
  exact skipSpaces_cons hc ds

theorem skipSpaces_append (h : AreSpaces gap) (cs : List Char) : skipSpaces (gap ++ cs) = skipSpaces cs :=
  List.dropWhile_append_of_pos h

theorem AreSpaces.skip_begins (h : AreSpaces gap) (hcs : Begins cs) : skipSpaces (gap ++ cs) = cs := by
  rw [skipSpaces_append h, skipSpaces_of_begins hcs]

theorem AreSpaces.skip_cons (h : AreSpaces gap) {c : Char} (hc : isSpace c = false) (cs : List Char) :
    skipSpaces (gap ++ c :: cs) = c :: cs := by
  rw [skipSpaces_append h, skipSpaces_cons hc]

theorem closes_cons {c : Char} (h : c = ',' ∨ c = ']' ∨ c = '\x7d') (cs : List Char) : Closes (c :: cs) := by
  rintro d ⟨⟩
  rcases h with rfl | rfl | rfl <;> decide

theorem closes_spaces (h : AreSpaces gap) (hrest : Closes rest) : Closes (gap ++ rest) := by
  cases gap with
  | nil => exact hrest
  | cons c gap =>
    rintro d ⟨⟩
    have hc := h c List.mem_cons_self
    simp only [isSpace, Bool.or_eq_true, beq_iff_eq] at hc
    rcases hc with ((rfl | rfl) | rfl) | rfl <;> decide

end Spaces

section Steps

variable {v : Value} {vs : List Value} {es : List (Value × Value)} {key : String}

theorem readItems_last (hv : readValue n cs = .ok (v, behind ++ ']' :: rest)) (hbehind : AreSpaces behind) :
    readItems (n + 1) cs = .ok ([v], rest) := by
  rw [readItems, hv]
  simp only [bind, Except.bind, hbehind.skip_cons (c := ']') rfl]
  rfl

theorem readItems_next {next : List Char} (hv : readValue n cs = .ok (v, ',' :: (gap ++ next))) (hgap : AreSpaces gap)
    (hnext : Begins next) (hvs : readItems n next = .ok (vs, rest)) : readItems (n + 1) cs = .ok (v :: vs, rest) := by
  rw [readItems, hv]
  simp only [bind, Except.bind, skipSpaces_cons (c := ',') rfl, hgap.skip_begins hnext, hvs]
  rfl

/-- What comes after the value of an entry: another entry, or the end of the mapping. -/
def readBehind (n : Nat) (es : List (Value × Value)) (key : String) (r : Value × List Char) :
    Except FormatError (Value × List Char) :=
  match skipSpaces r.2 with
  | ',' :: rest => readEntries n (Value.put key r.1 es) (skipSpaces rest)
  | '\x7d' :: rest => return (.map (Value.put key r.1 es), rest)
  | _ => .error .malformed

theorem readEntries_string (hgap : AreSpaces gap) (hcs : Begins cs) :
    readEntries (n + 1) es ((string key).toList ++ ':' :: (gap ++ cs)) = readValue n cs >>= readBehind n es key := by
  rw [toList_string, List.cons_append, List.append_assoc, List.singleton_append, readEntries, readString_flatMap]
  simp only [bind, Except.bind, skipSpaces_cons (c := ':') rfl, hgap.skip_begins hcs]
  rfl

theorem readEntries_last (hgap : AreSpaces gap) (hcs : Begins cs)
    (hv : readValue n cs = .ok (v, behind ++ '\x7d' :: rest)) (hbehind : AreSpaces behind) :
    readEntries (n + 1) es ((string key).toList ++ ':' :: (gap ++ cs)) = .ok (.map (Value.put key v es), rest) := by
  rw [readEntries_string hgap hcs, hv]
  simp only [bind, Except.bind, readBehind, hbehind.skip_cons (c := '\x7d') rfl]
  rfl

theorem readEntries_next {next : List Char} (hgap : AreSpaces gap) (hcs : Begins cs)
    (hv : readValue n cs = .ok (v, ',' :: (behind ++ next))) (hbehind : AreSpaces behind) (hnext : Begins next) :
    readEntries (n + 1) es ((string key).toList ++ ':' :: (gap ++ cs)) =
      readEntries n (Value.put key v es) next := by
  rw [readEntries_string hgap hcs, hv]
  simp only [bind, Except.bind, readBehind, skipSpaces_cons (c := ',') rfl, hbehind.skip_begins hnext]

end Steps

section Parts

variable {text : Value → List Char} {image : Value → Value}

/-- The text of a value is read as its image, whatever comes behind it. -/
structure ReadsAs (text : Value → List Char) (image : Value → Value) (v : Value) : Prop where
  begins : Begins (text v)
  read : ∀ n rest, (text v).length < n → Closes rest → readValue n (text v ++ rest) = .ok (image v, rest)

theorem readsAs_of_succ {v : Value} (hv : Begins (text v))
    (h : ∀ n rest, (text v).length ≤ n → Closes rest → readValue (n + 1) (text v ++ rest) = .ok (image v, rest)) :
    ReadsAs text image v where
  begins := hv
  read n rest hn hrest := by
    obtain ⟨m, rfl⟩ : ∃ m, n = m + 1 := ⟨n - 1, by omega⟩
    exact h m rest (Nat.le_of_lt_succ hn) hrest

theorem begins_intercalate {A : Type} {f : A → List Char} {a : A} (h : Begins (f a)) (as : List A) (rest : List Char) :
    Begins ((',' :: gap).intercalate ((a :: as).map f) ++ rest) := by
  cases as with
  | nil => simpa using h.append rest
  | cons b as => simpa using h.append _

theorem readItems_intercalate {vs : List Value} (hne : vs ≠ []) (h : ∀ v ∈ vs, ReadsAs text image v)
    (hgap : AreSpaces gap) (hbehind : AreSpaces behind)
    (hn : ((',' :: gap).intercalate (vs.map text)).length + 1 < n) :
    readItems n ((',' :: gap).intercalate (vs.map text) ++ (behind ++ ']' :: rest)) = .ok (vs.map image, rest) := by
  induction vs generalizing n with
  | nil => exact absurd rfl hne
  | cons v vs ih =>
    obtain ⟨m, rfl⟩ : ∃ m, n = m + 1 := ⟨n - 1, by omega⟩
    obtain ⟨hv, hvs⟩ := List.forall_mem_cons.mp h
    cases vs with
    | nil =>
      rw [List.map_singleton, List.intercalate_singleton] at hn ⊢
      have hcloses : Closes (behind ++ ']' :: rest) := closes_spaces hbehind (closes_cons (.inr (.inl rfl)) _)
      exact readItems_last (hv.read m _ (by omega) hcloses) hbehind
    | cons w vs =>
      rw [List.map_cons, List.map_cons, List.intercalate_cons_cons, ← List.map_cons] at hn ⊢
      simp only [List.length_append, List.length_cons] at hn
      have hitems := ih (List.cons_ne_nil _ _) hvs (n := m) (by omega)
      rw [List.append_assoc, List.append_assoc, List.cons_append]
      exact readItems_next (hv.read m _ (by omega) (closes_cons (.inl rfl) _)) hgap
        (begins_intercalate (hvs w List.mem_cons_self).begins _ _) hitems

/-- The text of an entry. -/
def entryText (text : Value → List Char) (colon : List Char) (e : String × Value) : List Char :=
  (string e.1).toList ++ ':' :: (colon ++ text e.2)

theorem begins_entryText (colon : List Char) (e : String × Value) : Begins (entryText text colon e) := by
  rw [entryText, toList_string]
  exact ⟨'"', _, rfl, rfl, by decide⟩

/-- Entries between commas are read up to the brace behind them, if their keys are new. -/
theorem readEntries_intercalate {entries done : List (String × Value)} (hne : entries ≠ [])
    (h : ∀ e ∈ entries, ReadsAs text image e.2) (hkeys : ((done ++ entries).map (·.1)).Nodup) {colon : List Char}
    (hcolon : AreSpaces colon) (hgap : AreSpaces gap) (hbehind : AreSpaces behind)
    (hn : ((',' :: gap).intercalate (entries.map (entryText text colon))).length + 1 < n) :
    readEntries n (done.map fun e => (.str e.1, e.2))
        ((',' :: gap).intercalate (entries.map (entryText text colon)) ++ (behind ++ '\x7d' :: rest)) =
      .ok (.object (done ++ entries.map fun e => (e.1, image e.2)), rest) := by
  induction entries generalizing n done with
  | nil => exact absurd rfl hne
  | cons e entries ih =>
    obtain ⟨m, rfl⟩ : ∃ m, n = m + 1 := ⟨n - 1, by omega⟩
    obtain ⟨he, hentries⟩ := List.forall_mem_cons.mp h
    have hnew : e.1 ∉ done.map (·.1) := by
      rw [List.map_append, List.map_cons] at hkeys
      exact fun hmem => (List.nodup_append.mp hkeys).2.2 _ hmem _ List.mem_cons_self rfl
    cases entries with
    | nil =>
      rw [List.map_singleton, List.intercalate_singleton] at hn ⊢
      have hcloses : Closes (behind ++ '\x7d' :: rest) := closes_spaces hbehind (closes_cons (.inr (.inr rfl)) _)
      have hlength : (text e.2).length < m := by
        simp only [entryText, List.length_append, List.length_cons] at hn
        omega
      rw [entryText, List.append_assoc, List.cons_append, List.append_assoc,
        readEntries_last hcolon (he.begins.append _) (he.read m _ hlength hcloses) hbehind, Value.put_of_not_mem hnew]
      rfl
    | cons d entries =>
      rw [List.map_cons, List.map_cons, List.intercalate_cons_cons, ← List.map_cons] at hn ⊢
      have hlength : (text e.2).length < m := by
        simp only [entryText, List.length_append, List.length_cons] at hn
        omega
      have hnext : Begins ((',' :: gap).intercalate ((d :: entries).map (entryText text colon)) ++
          (behind ++ '\x7d' :: rest)) := begins_intercalate (begins_entryText colon d) _ _
      have hkeys' : (((done ++ [(e.1, image e.2)]) ++ d :: entries).map (·.1)).Nodup := by
        simpa using hkeys
      have hm : ((',' :: gap).intercalate ((d :: entries).map (entryText text colon))).length + 1 < m := by
        simp only [List.length_append, List.length_cons] at hn
        omega
      have hrest := ih (List.cons_ne_nil _ _) hentries hkeys' hm
      rw [entryText, List.append_assoc, List.append_assoc, List.append_assoc, List.cons_append, List.append_assoc,
        List.cons_append,
        readEntries_next hcolon (he.begins.append _) (he.read m _ hlength (closes_cons (.inl rfl) _)) hgap hnext,
        Value.put_of_not_mem hnew, hrest]
      simp

end Parts

section Values

theorem readValue_list {vs : List Value} (hgap : AreSpaces gap) (hcs : Begins cs)
    (h : readItems n cs = .ok (vs, rest)) : readValue (n + 1) ('[' :: (gap ++ cs)) = .ok (.list vs, rest) := by
  simp only [readValue, hgap.skip_begins hcs]
  obtain ⟨c, ds, rfl, -, hc, -⟩ := hcs
  split
  next heq => exact absurd (List.cons.inj heq).1 hc
  · rw [h]
    rfl

theorem readValue_object {es : Value} (hgap : AreSpaces gap) (hcs : Begins cs)
    (h : readEntries n [] cs = .ok (es, rest)) : readValue (n + 1) ('\x7b' :: (gap ++ cs)) = .ok (es, rest) := by
  simp only [readValue, hgap.skip_begins hcs]
  obtain ⟨c, ds, rfl, -, -, hc⟩ := hcs
  split
  next heq => exact absurd (List.cons.inj heq).1 hc
  · exact h

theorem begins_of_isDigit {c : Char} (hc : c.isDigit = true) (cs : List Char) : Begins (c :: cs) := by
  refine ⟨c, cs, rfl, ?_, ?_, ?_⟩
  · by_contra hspace
    simp only [isSpace, Bool.not_eq_false, Bool.or_eq_true, beq_iff_eq] at hspace
    rcases hspace with ((rfl | rfl) | rfl) | rfl <;> cases hc
  · rintro rfl
    cases hc
  · rintro rfl
    cases hc

theorem begins_toString (m : Int) : Begins (toString m).toList := by
  obtain ⟨c, cs, hcs, hc⟩ := (areDigits_toDigits m.natAbs).exists_cons
  rw [toList_toString, hcs]
  split_ifs
  · exact ⟨'-', _, rfl, rfl, by decide⟩
  · exact begins_of_isDigit hc cs

theorem begins_number (x : Float) : Begins (number x).toList := by
  unfold number
  cases hx : Binary.ofFloat x with
  | notANumber => exact ⟨'N', ['a', 'N'], by simp, rfl, by decide⟩
  | infinite negative =>
    cases negative with
    | true => exact ⟨'-', "Infinity".toList, by simp, rfl, by decide⟩
    | false => exact ⟨'I', "nfinity".toList, by simp, rfl, by decide⟩
  | finite negative m e =>
    obtain ⟨c, cs, hcs, hc⟩ := (isFloatText_magnitude m e).exists_cons
    simp only [floatText, hx, String.toList_append]
    rw [hcs]
    cases negative with
    | true => exact ⟨'-', c :: cs, rfl, rfl, by decide⟩
    | false => exact begins_of_isDigit hc cs

variable {f : Format}

theorem areSpaces_newLine (depth : Nat) : AreSpaces (f.newLine depth).toList := by
  unfold Format.newLine
  split
  · nofun
  next n _ =>
    intro c hc
    have hor : c = '\n' ∨ c ∈ List.replicate (n * depth) ' ' := by simpa [List.mem_replicate] using hc
    rcases hor with rfl | hc
    · rfl
    · rw [List.eq_of_mem_replicate hc]
      rfl

theorem toList_bracket (depth : Nat) (opening closing : String) {parts : List String} (hne : parts ≠ []) :
    (f.bracket depth opening closing parts).toList = opening.toList ++ ((f.newLine (depth + 1)).toList ++
      ((',' :: (f.newLine (depth + 1)).toList).intercalate (parts.map String.toList) ++
        ((f.newLine depth).toList ++ closing.toList))) := by
  simp [Format.bracket, hne, String.toList_intercalate]

/-- The characters of a value at a depth. -/
def Format.chars (f : Format) (depth : Nat) (v : Value) : List Char := (f.render depth v).toList

theorem renderItems_eq (depth : Nat) (vs : List Value) : f.renderItems depth vs = vs.map (f.render depth) := by
  induction vs with
  | nil => rfl
  | cons v vs ih => rw [Format.renderItems, ih, List.map_cons]

theorem toList_renderEntries (depth : Nat) (entries : List (String × Value)) :
    (f.renderEntries depth (entries.map fun e => (.str e.1, e.2))).map String.toList =
      entries.map (entryText (f.chars depth) f.afterColon.toList) := by
  induction entries with
  | nil => rfl
  | cons e entries ih =>
    rw [List.map_cons, List.map_cons, Format.renderEntries, List.map_cons, ih]
    simp [entryText, Format.chars, Value.text]

theorem chars_list (depth : Nat) {vs : List Value} (hne : vs ≠ []) :
    f.chars depth (.list vs) = '[' :: ((f.newLine (depth + 1)).toList ++
      ((',' :: (f.newLine (depth + 1)).toList).intercalate (vs.map (f.chars (depth + 1))) ++
        ((f.newLine depth).toList ++ [']']))) := by
  have hparts : vs.map (f.render (depth + 1)) ≠ [] := by simpa using hne
  rw [Format.chars, Format.render, renderItems_eq, toList_bracket depth "[" "]" hparts, List.map_map]
  rfl

theorem chars_object (depth : Nat) {entries : List (String × Value)} (hne : entries ≠ []) :
    f.chars depth (.object entries) = '\x7b' :: ((f.newLine (depth + 1)).toList ++
      ((',' :: (f.newLine (depth + 1)).toList).intercalate
          (entries.map (entryText (f.chars (depth + 1)) f.afterColon.toList)) ++
        ((f.newLine depth).toList ++ ['\x7d']))) := by
  have hparts : f.renderEntries (depth + 1) (entries.map fun e => (.str e.1, e.2)) ≠ [] := by
    intro hparts
    have htexts := toList_renderEntries (f := f) (depth + 1) entries
    rw [hparts] at htexts
    exact hne (List.map_eq_nil_iff.mp htexts.symm)
  rw [Format.chars, Value.object, Format.render, toList_bracket depth "\x7b" "\x7d" hparts, toList_renderEntries]
  rfl

section Nested

variable {g : Float → Float} {depth : Nat}

theorem readsAs_list {vs : List Value} (h : ∀ v ∈ vs, ReadsAs (f.chars (depth + 1)) (.mapFloats g) v) :
    ReadsAs (f.chars depth) (.mapFloats g) (.list vs) := by
  by_cases hnil : vs = []
  · subst hnil
    have htext : f.chars depth (.list []) = ['[', ']'] := by
      simp [Format.chars, Format.render, Format.renderItems, Format.bracket]
    refine readsAs_of_succ ⟨'[', [']'], htext, rfl, by decide⟩ fun n rest _ _ => ?_
    rw [htext]
    simp [readValue, skipSpaces_cons (c := ']') rfl, Value.mapFloats_list]
  · have htext := chars_list (f := f) depth hnil
    refine readsAs_of_succ ⟨'[', _, htext, rfl, by decide⟩ fun n rest hn _ => ?_
    rw [htext] at hn ⊢
    simp only [List.length_cons, List.length_append] at hn
    obtain ⟨v, vs, rfl⟩ := List.exists_cons_of_ne_nil hnil
    rw [Value.mapFloats_list, List.cons_append, List.append_assoc, List.append_assoc, List.append_assoc]
    refine readValue_list (areSpaces_newLine _) (begins_intercalate (h v List.mem_cons_self).begins _ _) ?_
    exact readItems_intercalate hnil h (areSpaces_newLine _) (areSpaces_newLine _) (by omega)

theorem readsAs_object (hf : AreSpaces f.afterColon.toList) {entries : List (String × Value)}
    (hkeys : (entries.map (·.1)).Nodup) (h : ∀ e ∈ entries, ReadsAs (f.chars (depth + 1)) (.mapFloats g) e.2) :
    ReadsAs (f.chars depth) (.mapFloats g) (.object entries) := by
  by_cases hnil : entries = []
  · subst hnil
    have htext : f.chars depth (.object []) = ['\x7b', '\x7d'] := by
      simp [Format.chars, Value.object, Format.render, Format.renderEntries, Format.bracket]
    refine readsAs_of_succ ⟨'\x7b', ['\x7d'], htext, rfl, by decide⟩ fun n rest _ _ => ?_
    rw [htext, Value.mapFloats_object]
    simp [readValue, skipSpaces_cons (c := '\x7d') rfl, Value.object]
  · have htext := chars_object (f := f) depth hnil
    refine readsAs_of_succ ⟨'\x7b', _, htext, rfl, by decide⟩ fun n rest hn _ => ?_
    rw [htext] at hn ⊢
    simp only [List.length_cons, List.length_append] at hn
    obtain ⟨e, entries, rfl⟩ := List.exists_cons_of_ne_nil hnil
    rw [Value.mapFloats_object, List.cons_append, List.append_assoc, List.append_assoc, List.append_assoc]
    refine readValue_object (areSpaces_newLine _) (begins_intercalate (begins_entryText _ e) _ _) ?_
    have hnew : (([] ++ e :: entries : List (String × Value)).map (·.1)).Nodup := hkeys
    exact readEntries_intercalate hnil h hnew hf (areSpaces_newLine _) (areSpaces_newLine _) (by omega)

end Nested

end Values

end Json

section Documents

open Json

/-- The text of a value is read as the value, with each float as it is read by itself. -/
theorem Value.Writable.readsAs {f : Format} {g : Float → Float} (hf : AreSpaces f.afterColon.toList)
    (hg : ∀ x n rest, Closes rest → readValue (n + 1) ((number x).toList ++ rest) = .ok (.float (g x), rest))
    {v : Value} (hv : v.Writable) (depth : Nat) : ReadsAs (f.chars depth) (mapFloats g) v := by
  induction hv generalizing depth with
  | null =>
    have htext : f.chars depth .null = 'n' :: "ull".toList := by simp [Format.chars, Format.render]
    refine readsAs_of_succ ⟨'n', _, htext, rfl, by decide⟩ fun n rest _ _ => ?_
    simp [htext, readValue, readName, dropWord?, mapFloats]
  | bool b =>
    cases b with
    | true =>
      have htext : f.chars depth (.bool true) = 't' :: "rue".toList := by simp [Format.chars, Format.render]
      refine readsAs_of_succ ⟨'t', _, htext, rfl, by decide⟩ fun n rest _ _ => ?_
      simp [htext, readValue, readName, dropWord?, mapFloats]
    | false =>
      have htext : f.chars depth (.bool false) = 'f' :: "alse".toList := by simp [Format.chars, Format.render]
      refine readsAs_of_succ ⟨'f', _, htext, rfl, by decide⟩ fun n rest _ _ => ?_
      simp [htext, readValue, readName, dropWord?, mapFloats]
  | int hm => exact readsAs_of_succ (begins_toString _) fun n rest _ hrest => readValue_toString hm hrest
  | float x => exact readsAs_of_succ (begins_number x) fun n rest _ hrest => hg x n rest hrest
  | str s =>
    have htext : f.chars depth (.str s) = (string s).toList := rfl
    rw [toList_string] at htext
    refine readsAs_of_succ ⟨'"', _, htext, rfl, by decide⟩ fun n rest _ _ => ?_
    rw [htext, List.cons_append, List.append_assoc, List.singleton_append, readValue, readString_flatMap]
    rfl
  | list _ ih => exact readsAs_list fun v hv => ih v hv (depth + 1)
  | object hkeys _ ih => exact readsAs_object hf hkeys fun e he => ih e he (depth + 1)

/-- A document with white space behind it is read as the value that it was written for, with floats that depend on the
written ones alone. -/
theorem Json.exists_read_document : ∃ g : Float → Float, ∀ (v : Value) (behind : String), v.Writable →
    AreSpaces behind.toList → read (document v ++ behind) = .ok (v.mapFloats g) := by
  choose g hg using exists_readValue_number
  refine ⟨g, fun v behind hv hbehind => ?_⟩
  have hspaces : AreSpaces pretty.afterColon.toList := by
    intro c hc
    obtain rfl : c = ' ' := by simpa [pretty] using hc
    rfl
  obtain ⟨hbegins, hread⟩ := hv.readsAs (f := pretty) hspaces hg 0
  have hcloses : Closes behind.toList := by
    have hnil : Closes [] := nofun
    simpa using closes_spaces hbehind hnil
  have htext : (document v ++ behind).toList = pretty.chars 0 v ++ behind.toList := by
    rw [String.toList_append]
    rfl
  have hend : skipSpaces behind.toList = [] := by
    simpa [skipSpaces] using skipSpaces_append hbehind []
  have hfuel : (pretty.chars 0 v).length < (pretty.chars 0 v ++ behind.toList).length + 1 := by
    rw [List.length_append]
    omega
  rw [read, htext]
  simp only [skipSpaces_of_begins (hbegins.append _), hread _ _ hfuel hcloses, bind, Except.bind, hend]
  rfl

end Documents

end CommentGrade
