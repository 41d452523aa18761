import ModuleCatalog.Proofs.Artifact.RoundTrip
import ModuleCatalog.Proofs.Manifest.Search

/-!
# Searching a manifest that has been read

A manifest of modules that has been written and read again lists each module only under names that the module
declares, so a search without constraints leaves nothing out. More constraints never bring in a module, and never
change the order in which modules are found.
-/

namespace ModuleCatalog.Artifact

open Manifest (ofReferences)

variable {modules : List Module} {references : List (Fin modules.length)} {restored : Manifest}

section Restored

variable (h : (ofReferences modules references).Isomorphic restored) (name : Text)

include h

theorem find_nil_of_isomorphic : restored.find name [] = restored.members name := by
  apply Manifest.find_nil
  intro found hfound
  rw [← h.members_eq] at hfound
  exact Manifest.declares_of_mem_members modules references name hfound

theorem contains_iff_of_isomorphic :
    restored.contains name ↔ ∃ m ∈ references.map modules.get, ∃ c ∈ m.categories, c.name = name := by
  rw [Manifest.contains_iff, ← h.names_eq, Manifest.names_ofReferences, Manifest.mem_firstOccurrences,
    Manifest.mem_uses]

end Restored

/-- Modules that have been written and read again are all found by a name alone, and names are known exactly if some
module declares them. Two lists of constraints find what both of them find, in the same order. -/
theorem find_restored (modules : List Module) (references : List (Fin modules.length)) {chunkSize : Int}
    (h : 1 ≤ chunkSize) :
    ∃ text restored, encode (ofReferences modules references) chunkSize = .ok text ∧ decode text = .ok restored ∧
      ∀ name, restored.find name [] = restored.members name ∧
        (restored.contains name ↔ ∃ m ∈ references.map modules.get, ∃ c ∈ m.categories, c.name = name) ∧
        ∀ constraints others,
          (restored.find name (constraints ++ others) =
            (restored.find name constraints).filter fun found => found ∈ restored.find name others) ∧
          (restored.find name (constraints ++ others)).Sublist (restored.find name constraints) := by
  have hsize : 0 < chunkSize.toNat := by omega
  have hchunks := flatten_chunksOf hsize (payload (ofReferences modules references))
  have hisomorphic := (ofReferences modules references).isomorphic_normal
  refine ⟨_, _, encode_of_le h _, decode_documentText _ hchunks, fun name => ⟨find_nil_of_isomorphic hisomorphic name,
    contains_iff_of_isomorphic hisomorphic name, fun constraints others => ?_⟩⟩
  have hfind := Manifest.find_append (ofReferences modules references).normal name constraints others
  refine ⟨hfind, ?_⟩
  rw [hfind]
  exact List.filter_sublist

theorem find_restored_twoServices : (1 : Int) ≤ 3 ∧
    ∃ text restored, encode (ofReferences [Manifest.twoServices] [0, 0]) 3 = .ok text ∧ decode text = .ok restored ∧
      restored.find "svc" [] = restored.members "svc" ∧ restored.contains "svc" ∧
      (restored.find "svc" [("a", .value "1"), ("b", .value "2")] =
        (restored.find "svc" [("a", .value "1")]).filter fun found => found ∈ restored.find "svc" [("b", .value "2")]) ∧
      (restored.find "svc" [("a", .value "1"), ("b", .value "2")]).Sublist
        (restored.find "svc" [("a", .value "1")]) := by
  have hsize : (1 : Int) ≤ 3 := by decide
  obtain ⟨text, restored, hencode, hdecode, hfound⟩ := find_restored [Manifest.twoServices] [0, 0] hsize
  obtain ⟨hall, hcontains, hmore⟩ := hfound "svc"
  have hdeclared : ∃ m ∈ ([0, 0] : List (Fin 1)).map [Manifest.twoServices].get,
      ∃ c ∈ m.categories, c.name = Text.ofString "svc" := by decide
  obtain ⟨hboth, hsublist⟩ := hmore [("a", .value "1")] [("b", .value "2")]
  exact ⟨hsize, text, restored, hencode, hdecode, hall, hcontains.2 hdeclared, hboth, hsublist⟩

end ModuleCatalog.Artifact
