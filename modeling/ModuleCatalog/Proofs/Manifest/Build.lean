import Mathlib.Data.List.FinRange
import ModuleCatalog.Proofs.Manifest.Buckets

/-!
# No module is lost in a manifest

Every module with a category is listed in some bucket, so a manifest has as many modules as it has been
built from if each of them has a category.
-/

namespace ModuleCatalog.Manifest

/-- The references of a manifest are those of the modules that have a category. -/
theorem mem_references_build {modules : List Module} {reference : Fin (build modules).modules.length} :
    reference ∈ (build modules).references ↔ ((build modules).module reference).categories ≠ [] := by
  have hdeclared : ∀ reference : Fin modules.length,
      reference ∈ ((List.finRange modules.length).flatMap fun other =>
        List.replicate modules[other].categories.length other) ↔ modules[reference].categories ≠ [] := by
    intro reference
    rw [List.mem_flatMap]
    constructor
    · rintro ⟨other, -, hother⟩
      obtain ⟨hlength, rfl⟩ := List.mem_replicate.1 hother
      exact mt List.length_eq_zero_iff.2 hlength
    · intro h
      exact ⟨reference, List.mem_finRange reference, List.mem_replicate.2 ⟨mt List.length_eq_zero_iff.1 h, rfl⟩⟩
  exact (perm_listed_bucketsOf _ _).mem_iff.trans (hdeclared reference)

theorem length_of_forall_mem {n : Nat} {xs : List (Fin n)} (hnodup : xs.Nodup) (h : ∀ i, i ∈ xs) :
    xs.length = n := by
  have hperm : xs.Perm (List.finRange n) := by
    rw [List.perm_ext_iff_of_nodup hnodup (List.nodup_finRange n)]
    exact fun i => ⟨fun _ => List.mem_finRange i, fun _ => h i⟩
  rw [hperm.length_eq, List.length_finRange]

/-- As many modules are listed as there are, if each of them has a category. -/
theorem moduleCount_build {modules : List Module} (h : ∀ m ∈ modules, m.categories ≠ []) :
    (build modules).moduleCount = modules.length := by
  apply length_of_forall_mem (nodup_firstUses (build modules))
  intro reference
  rw [mem_firstUses, mem_references_build]
  exact h _ (List.getElem_mem _)

end ModuleCatalog.Manifest
