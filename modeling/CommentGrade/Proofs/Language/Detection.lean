import CommentGrade.Language.Detection
import CommentGrade.Proofs.Files.Paths
import CommentGrade.Proofs.Language.Identifiers
import Mathlib.Data.List.TakeWhile

/-!
# What the name of a file says

The language of a file is the one its name stands for, where the name is the last component of the path. The name is
looked up as a whole first, then by its extension, which is what stands behind its last dot unless that dot is the first
or the last character. All letters are looked up as small ones, so the letters of ASCII may change their case anywhere in
the path. Every language that a name stands for is an identifier whose comments can be found.
-/
namespace CommentGrade

namespace Text

/-- A character that is no letter of ASCII comes from itself alone. -/
theorem toLower_eq_iff {c d : Char} (hd : d.toNat < 0x41 ∨ 0x7a < d.toNat) : c.toLower = d ↔ c = d := by
  rcases toLower_cases c with ⟨hlow, hhigh, hlower⟩ | hsame
  · constructor
    · rintro rfl
      omega
    · rintro rfl
      omega
  · rw [hsame]

theorem lowerChar_toLower (c : Char) : lowerChar c.toLower = lowerChar c := by
  rcases toLower_cases c with ⟨hlow, hhigh, hlower⟩ | hsame
  · have hagain : c.toLower.toLower = c.toLower := by
      rcases toLower_cases c.toLower with ⟨-, habove, -⟩ | hsame
      · omega
      · exact hsame
    rw [lowerChar, lowerChar, if_pos (by omega), if_pos (by omega), hagain]
  · rw [hsame]

theorem lower_map_toLower (cs : List Char) : lower (cs.map Char.toLower) = lower cs := by
  induction cs with
  | nil => rfl
  | cons c cs ih =>
    have hdotted : c.toLower = '\u0130' ↔ c = '\u0130' := toLower_eq_iff (by decide)
    simp only [List.map_cons, lower, hdotted, lowerChar_toLower, ih]

theorem toList_toLower (s : String) : s.toLower.toList = s.toList.map Char.toLower := String.toList_map

theorem splitOnP_map_toLower {p : Char → Bool} (hp : ∀ c, p c.toLower = p c) (cs : List Char) :
    (cs.map Char.toLower).splitOnP p = (cs.splitOnP p).map (List.map Char.toLower) := by
  induction cs with
  | nil => rfl
  | cons c cs ih =>
    rw [List.map_cons, List.splitOnP_cons_eq_if_modifyHead, List.splitOnP_cons_eq_if_modifyHead, hp, ih]
    split_ifs with hc
    · rfl
    · obtain ⟨w, ws, hsplit⟩ := List.exists_cons_of_ne_nil (List.splitOnP_ne_nil p cs)
      rw [hsplit]
      rfl

end Text

namespace Path

theorem toLower_ofList (cs : List Char) : (String.ofList cs).toLower = String.ofList (cs.map Char.toLower) := by
  rw [← String.toList_inj, Text.toList_toLower, String.toList_ofList, String.toList_ofList]

theorem toLower_eq_dot_iff {s : String} : s.toLower = "." ↔ s = "." := by
  have hdot : ∀ c : Char, c.toLower = '.' ↔ c = '.' := fun c => Text.toLower_eq_iff (by decide)
  rw [← String.toList_inj, ← String.toList_inj, Text.toList_toLower]
  change s.toList.map Char.toLower = ['.'] ↔ s.toList = ['.']
  rw [List.map_eq_singleton_iff]
  simp only [hdot, exists_eq_right]

theorem components_toLower (s : String) : components s.toLower = (components s).map String.toLower := by
  have hslash : ∀ c : Char, (c.toLower == '/') = (c == '/') := by
    intro c
    rw [Bool.eq_iff_iff, beq_iff_eq, beq_iff_eq, Text.toLower_eq_iff (by decide)]
  have hsays : ((fun q : String => q != "" && q != ".") ∘ String.toLower) = fun q => q != "" && q != "." := by
    funext q
    have hempty : q.toLower = "" ↔ q = "" := String.map_eq_empty
    rw [Function.comp_apply, Bool.eq_iff_iff]
    simp only [Bool.and_eq_true, bne_iff_ne, ne_eq, hempty, toLower_eq_dot_iff]
  have hwords : String.ofList ∘ List.map Char.toLower = String.toLower ∘ String.ofList := by
    funext w
    exact (toLower_ofList w).symm
  rw [components, components, Text.toList_toLower, Text.splitOnP_map_toLower hslash, List.map_map, hwords,
    ← List.map_map, List.filter_map, hsays]

theorem name_toLower (s : String) : (ofString s.toLower).name = (ofString s).name.toLower := by
  change (components s.toLower).getLast?.getD "" = ((components s).getLast?.getD "").toLower
  rw [components_toLower, List.getLast?_map]
  cases (components s).getLast? with
  | none => exact (String.map_eq_empty.mpr rfl).symm
  | some q => rfl

theorem components_eq_singleton {name : String} (h : IsComponent name) : components name = [name] := by
  have hparts : ∀ q ∈ [name], IsComponent q := by simpa using h
  have hread := components_intercalate hparts
  rwa [String.intercalate_singleton] at hread

end Path

/-- A name has an extension behind its last dot, if that dot is neither its first character nor its last one. -/
def HasExtension (name ext : List Char) : Prop :=
  ∃ stem, name = stem ++ '.' :: ext ∧ stem ≠ [] ∧ ext ≠ [] ∧ '.' ∉ ext

section Extensions

variable {name ext : List Char}

theorem all_ne_dot (h : '.' ∉ ext) : ∀ c ∈ ext.reverse, (c != '.') = true := by
  intro c hc
  rw [bne_iff_ne]
  rintro rfl
  exact h (List.mem_reverse.mp hc)

theorem nameSuffix_of_not_mem (h : '.' ∉ name) : nameSuffix name = [] := by
  rw [nameSuffix, List.takeWhile_eq_self_iff.mpr (all_ne_dot h), List.reverse_reverse, Nat.sub_self]
  exact if_pos (.inl Nat.two_pos)

theorem nameSuffix_append (h : '.' ∉ ext) (stem : List Char) :
    nameSuffix (stem ++ '.' :: ext) = if stem = [] ∨ ext = [] then [] else '.' :: ext := by
  have hending : ((stem ++ '.' :: ext).reverse.takeWhile (· != '.')).reverse = ext := by
    rw [List.reverse_append, List.reverse_cons, List.append_assoc, List.takeWhile_append_of_pos (all_ne_dot h),
      List.singleton_append, List.takeWhile_cons_of_neg (by decide), List.append_nil, List.reverse_reverse]
  have hstem : (stem ++ '.' :: ext).length - ext.length < 2 ↔ stem = [] := by
    rw [List.length_append, List.length_cons, ← List.length_eq_zero_iff]
    omega
  simp only [nameSuffix, hending, hstem]

theorem exists_last_dot (h : '.' ∈ name) : ∃ stem ext, name = stem ++ '.' :: ext ∧ '.' ∉ ext := by
  obtain ⟨a, b, hname, ha⟩ := List.eq_append_cons_of_mem (List.mem_reverse.mpr h)
  refine ⟨b.reverse, a.reverse, ?_, mt List.mem_reverse.mp ha⟩
  rw [← List.reverse_reverse name, hname, List.reverse_append, List.reverse_cons, List.append_assoc,
    List.singleton_append]

theorem HasExtension.nameSuffix_eq (h : HasExtension name ext) : nameSuffix name = '.' :: ext := by
  obtain ⟨stem, rfl, hstem, hext, hdot⟩ := h
  rw [nameSuffix_append hdot, if_neg (not_or.mpr ⟨hstem, hext⟩)]

theorem nameSuffix_cases (name : List Char) :
    nameSuffix name = [] ∨ ∃ ext, nameSuffix name = '.' :: ext ∧ HasExtension name ext := by
  by_cases hmem : '.' ∈ name
  · obtain ⟨stem, ext, rfl, hdot⟩ := exists_last_dot hmem
    rw [nameSuffix_append hdot]
    split_ifs with hnone
    · exact .inl rfl
    · obtain ⟨hstem, hext⟩ := not_or.mp hnone
      exact .inr ⟨ext, rfl, stem, rfl, hstem, hext, hdot⟩
  · exact .inl (nameSuffix_of_not_mem hmem)

theorem nameSuffix_map_toLower (name : List Char) :
    nameSuffix (name.map Char.toLower) = (nameSuffix name).map Char.toLower := by
  have hdot : ((· != '.') ∘ Char.toLower) = (· != '.') := by
    funext c
    rw [Function.comp_apply, Bool.eq_iff_iff, bne_iff_ne, bne_iff_ne, Ne, Text.toLower_eq_iff (by decide)]
  have hending : ((name.map Char.toLower).reverse.takeWhile (· != '.')).reverse =
      (name.reverse.takeWhile (· != '.')).reverse.map Char.toLower := by
    rw [← List.map_reverse, List.takeWhile_map, hdot, List.map_reverse]
  simp only [nameSuffix, hending, List.length_map, List.map_eq_nil_iff]
  split_ifs <;> rfl

end Extensions

namespace Language

/-- A file name stands for a language if it is known as a whole, or if it is not and its extension is known. -/
inductive StandsFor (name id : String) : Prop
  | whole : fileNames.lookup (lowerText name) = some id → StandsFor name id
  | extension {ext : List Char} : fileNames.lookup (lowerText name) = none → HasExtension name.toList ext →
      endings.lookup (lowerText (String.ofList ('.' :: ext))) = some id → StandsFor name id

section Names

variable {name id : String}

theorem ofFileName?_of_whole (h : fileNames.lookup (lowerText name) = some id) : ofFileName? name = some id := by
  rw [ofFileName?, h]

theorem ofFileName?_of_ending (h : fileNames.lookup (lowerText name) = none) :
    ofFileName? name = endings.lookup (lowerText (String.ofList (nameSuffix name.toList))) := by
  rw [ofFileName?, h, lowerText, String.toList_ofList]

theorem ofFileName?_eq_some_iff : ofFileName? name = some id ↔ StandsFor name id := by
  constructor
  · intro h
    cases hname : fileNames.lookup (lowerText name) with
    | some found =>
      rw [ofFileName?_of_whole hname] at h
      exact .whole (hname.trans h)
    | none =>
      rw [ofFileName?_of_ending hname] at h
      rcases nameSuffix_cases name.toList with hnone | ⟨ext, hsuffix, hext⟩
      · have hempty : endings.lookup (lowerText (String.ofList [])) = none := by decide
        rw [hnone, hempty] at h
        cases h
      · rw [hsuffix] at h
        exact .extension hname hext h
  · rintro (hname | ⟨hname, hext, hid⟩)
    · exact ofFileName?_of_whole hname
    · rw [ofFileName?_of_ending hname, hext.nameSuffix_eq, hid]

theorem ofFileName?_toLower (name : String) : ofFileName? name.toLower = ofFileName? name := by
  have hwhole : lowerText name.toLower = lowerText name := by
    rw [lowerText, lowerText, Text.toList_toLower, Text.lower_map_toLower]
  have hending : Text.lower (nameSuffix name.toLower.toList) = Text.lower (nameSuffix name.toList) := by
    rw [Text.toList_toLower, nameSuffix_map_toLower, Text.lower_map_toLower]
  rw [ofFileName?, ofFileName?, hwhole, hending]

theorem mem_of_lookup {es : List (String × String)} {key : String} (h : es.lookup key = some id) :
    id ∈ es.map (·.2) := by
  obtain ⟨before, after, rfl, -⟩ := List.lookup_eq_some_iff.mp h
  rw [List.map_append]
  exact List.mem_append_right _ List.mem_cons_self

theorem StandsFor.mem_supportedIds (h : StandsFor name id) : id ∈ supportedIds := by
  have hids : ∀ id ∈ (fileNames ++ endings).map (·.2), id = plainTextId ∨ ∃ g ∈ groups, id ∈ g.1 := by
    decide +kernel
  rw [List.map_append] at hids
  apply mem_supportedIds_iff.mpr
  rcases h with hname | ⟨-, -, hid⟩
  · exact hids id (List.mem_append_left _ (mem_of_lookup hname))
  · exact hids id (List.mem_append_right _ (mem_of_lookup hid))

end Names

section Paths

variable {path name : String}

theorem ofPath?_toLower (path : String) : ofPath? path.toLower = ofPath? path := by
  rw [ofPath?, ofPath?, Path.name_toLower, ofFileName?_toLower]

theorem ofPath?_of_getLast? (h : (Path.components path).getLast? = some name) : ofPath? path = ofFileName? name := by
  change ofFileName? ((Path.components path).getLast?.getD "") = ofFileName? name
  rw [h, Option.getD_some]

theorem ofPath?_of_getLast?_eq_none (h : (Path.components path).getLast? = none) : ofPath? path = none := by
  change ofFileName? ((Path.components path).getLast?.getD "") = none
  rw [h]
  decide

theorem ofPath?_eq_some_iff {id : String} :
    ofPath? path = some id ↔ ∃ name, (Path.components path).getLast? = some name ∧ StandsFor name id := by
  cases hname : (Path.components path).getLast? with
  | none => simp [ofPath?_of_getLast?_eq_none hname]
  | some name => simp [ofPath?_of_getLast? hname, ofFileName?_eq_some_iff]

end Paths

/-- The last component of a path decides the language of the file, and it decides the same where it is the whole path. The
letters of ASCII may change their case anywhere in the path. A language that is found is an identifier, whose profile is
supported where plain text is wanted. -/
theorem ofPath?_lastComponent (path : String) :
    (∀ name, (Path.components path).getLast? = some name → ofPath? path = ofPath? name) ∧
    (∀ path' : String, path'.toLower = path.toLower → ofPath? path' = ofPath? path) ∧
    (∀ id, ofPath? path = some id → id ∈ supportedIds ∧ (profileFor id true).supported = true) ∧
    (∀ id, ofPath? path = some id ↔
      ∃ name, (Path.components path).getLast? = some name ∧ StandsFor name id) := by
  refine ⟨?_, ?_, ?_, fun id => ofPath?_eq_some_iff⟩
  · intro name h
    have hname : Path.IsComponent name := Path.isComponent_of_mem_components (List.mem_of_getLast? h)
    have halone : (Path.components name).getLast? = some name := by rw [Path.components_eq_singleton hname]; rfl
    rw [ofPath?_of_getLast? h, ofPath?_of_getLast? halone]
  · intro path' h
    rw [← ofPath?_toLower path', h, ofPath?_toLower]
  · intro id h
    obtain ⟨name, -, hstands⟩ := ofPath?_eq_some_iff.mp h
    exact ⟨hstands.mem_supportedIds, supported_profileFor hstands.mem_supportedIds⟩

/-- A name with two dots below a directory with one, in capitals and with slashes and a dot behind it. -/
theorem ofPath?_lastComponent_python :
    let path := "Src/lib.d/./My.Test.Py/./"
    let path' := "src/LIB.D/./mY.tEST.pY/./"
    (Path.components path).getLast? = some "My.Test.Py" ∧ path'.toLower = path.toLower ∧
      ofPath? path = some "python" ∧ ofPath? "My.Test.Py" = some "python" ∧ ofPath? path' = some "python" ∧
      "python" ∈ supportedIds ∧ (profileFor "python" true).supported = true := by
  intro path path'
  have hname : (Path.components path).getLast? = some "My.Test.Py" := by decide
  have hcase : path'.toLower = path.toLower := by
    rw [← String.toList_inj, Text.toList_toLower, Text.toList_toLower]
    decide
  have hpython : ofPath? path = some "python" := by decide +kernel
  obtain ⟨hlast, hcaseless, hids, -⟩ := ofPath?_lastComponent path
  obtain ⟨hmem, hsupported⟩ := hids "python" hpython
  exact ⟨hname, hcase, hpython, (hlast _ hname).symm.trans hpython, (hcaseless path' hcase).trans hpython, hmem,
    hsupported⟩

end Language

end CommentGrade
