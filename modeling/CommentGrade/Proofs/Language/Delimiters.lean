import CommentGrade.Language.Registry
import CommentGrade.Proofs.Text.Lines

/-!
# The delimiters of the registry

What holds of every pair of block delimiters in the registry: there is no white space in them, and a closing one is part
of its opening one only if it is the same.
-/
namespace CommentGrade.Language

variable {id : String} {wanted : Bool} {d : Delimiters}

theorem exists_group_of_block (h : (profileFor id wanted).block = some d) :
    ∃ g ∈ groups, g.2.block = some d ∧ profileFor id wanted = g.2 := by
  by_cases hid : id = plainTextId
  · rw [profileFor, if_pos hid] at h
    cases h
  · rw [profileFor, if_neg hid, registryProfile?] at h
    rw [profileFor, if_neg hid, registryProfile?]
    cases hg : groups.find? fun g => g.1.contains id with
    | none =>
      rw [hg] at h
      cases h
    | some g =>
      rw [hg] at h
      exact ⟨g, List.mem_of_find?_eq_some hg, h, rfl⟩

theorem supported_of_block (h : (profileFor id wanted).block = some d) : (profileFor id wanted).supported = true := by
  have hgroups : ∀ g ∈ groups, g.2.supported = true := by decide
  obtain ⟨g, hg, -, hprofile⟩ := exists_group_of_block h
  rw [hprofile]
  exact hgroups g hg

/-- Block delimiters are words of characters that are not white space. -/
theorem blockDelimiters_proper (h : (profileFor id wanted).block = some d) :
    (d.opening.toList ≠ [] ∧ ∀ c ∈ d.opening.toList, Text.isBlank c = false) ∧
      (d.closing.toList ≠ [] ∧ ∀ c ∈ d.closing.toList, Text.isBlank c = false) := by
  have hgroups : ∀ g ∈ groups, ∀ d ∈ g.2.block,
      (d.opening.toList ≠ [] ∧ d.opening.toList.any Text.isBlank = false) ∧
        (d.closing.toList ≠ [] ∧ d.closing.toList.any Text.isBlank = false) := by decide
  obtain ⟨g, hg, hblock, -⟩ := exists_group_of_block h
  obtain ⟨hopening, hclosing⟩ := hgroups g hg d hblock
  exact ⟨hopening.imp_right Text.isBlank_eq_false_of_mem, hclosing.imp_right Text.isBlank_eq_false_of_mem⟩

/-- A closing delimiter is no proper part of its opening one. -/
theorem opening_eq_of_part (h : (profileFor id wanted).block = some d)
    (hpart : d.closing.toList <:+: d.opening.toList) : d.opening = d.closing := by
  have hgroups : ∀ g ∈ groups, ∀ d ∈ g.2.block, d.closing.toList <:+: d.opening.toList → d.opening = d.closing := by
    decide
  obtain ⟨g, hg, hblock, -⟩ := exists_group_of_block h
  exact hgroups g hg d hblock hpart

end CommentGrade.Language
