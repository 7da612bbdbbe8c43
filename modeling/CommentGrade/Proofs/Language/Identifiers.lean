import CommentGrade.Language.Registry
import Mathlib.Data.List.Basic

/-!
# Identifiers of languages

The identifiers with comments to find are those of the registry and the one of plain text. The registry has a profile for
each of its own, which is supported and has a line delimiter.
-/
namespace CommentGrade.Language

theorem mem_supportedIds_iff {id : String} :
    id ∈ supportedIds ↔ id = plainTextId ∨ ∃ g ∈ groups, id ∈ g.1 := by
  rw [supportedIds, List.mem_append, List.mem_mergeSort, registered, List.mem_eraseDups, List.mem_flatMap,
    List.mem_singleton, or_comm]

theorem ne_plainTextId {id : String} (h : ∃ g ∈ groups, id ∈ g.1) : id ≠ plainTextId := by
  have hgroups : ∀ g ∈ groups, plainTextId ∉ g.1 := by decide +kernel
  obtain ⟨g, hg, hid⟩ := h
  rintro rfl
  exact hgroups g hg hid

/-- Every identifier of the registry has a profile, which is supported and has a line delimiter. -/
theorem exists_registryProfile {id : String} (h : ∃ g ∈ groups, id ∈ g.1) :
    ∃ profile, registryProfile? id = some profile ∧ profile.supported = true ∧
      ∃ d, profile.lineDelimiter = some d ∧ d ≠ "" := by
  have hgroups : ∀ g ∈ groups, g.2.supported = true ∧ ∃ d ∈ g.2.lineDelimiter, d ≠ "" := by decide
  obtain ⟨g, hg, hid⟩ := h
  cases hfind : groups.find? fun g => g.1.contains id with
  | none => exact absurd (List.contains_iff_mem.mpr hid) (List.find?_eq_none.mp hfind g hg)
  | some found =>
    obtain ⟨hsupported, d, hd, hne⟩ := hgroups found (List.mem_of_find?_eq_some hfind)
    refine ⟨found.2, ?_, hsupported, d, hd, hne⟩
    rw [registryProfile?, hfind]
    rfl

theorem profileFor_of_mem_group {id : String} (h : ∃ g ∈ groups, id ∈ g.1) (wanted : Bool) :
    (profileFor id wanted).supported = true ∧ ∃ d, (profileFor id wanted).lineDelimiter = some d ∧ d ≠ "" := by
  obtain ⟨profile, hprofile, hsupported⟩ := exists_registryProfile h
  rw [profileFor, if_neg (ne_plainTextId h), hprofile]
  exact hsupported

/-- Where plain text is wanted, every identifier has a supported profile. -/
theorem supported_profileFor {id : String} (h : id ∈ supportedIds) : (profileFor id true).supported = true := by
  rcases mem_supportedIds_iff.mp h with rfl | hgroup
  · rfl
  · exact (profileFor_of_mem_group hgroup true).1

end CommentGrade.Language
