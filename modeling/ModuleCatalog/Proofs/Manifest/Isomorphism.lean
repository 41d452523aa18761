import Mathlib.Data.List.Induction
import Mathlib.Data.Set.Function
import ModuleCatalog.Proofs.Manifest.Names

/-!
# Isomorphic manifests

Isomorphism is an equivalence. It pairs the references of two manifests in such a way that either half of a
pair determines the other one, so first uses and ranks can be read off the pairs: isomorphic manifests use
equal modules first in the same order, and their references have the same ranks.
-/

namespace ModuleCatalog.Manifest

/-! ## First occurrences -/

section FirstOccurrences

variable {α β : Type} [DecidableEq α] [DecidableEq β] {f : α → β} {xs : List α}

/-- A function that tells the elements of a list apart does not change which of them occur first. -/
theorem firstOccurrences_map (hf : Set.InjOn f {a | a ∈ xs}) :
    firstOccurrences (xs.map f) = (firstOccurrences xs).map f := by
  induction xs using List.reverseRecOn with
  | nil => rfl
  | append_singleton xs x ih =>
    have hbefore : Set.InjOn f {a | a ∈ xs} := hf.mono fun a ha => List.mem_append_left _ ha
    have hmem : f x ∈ xs.map f ↔ x ∈ xs := by
      rw [List.mem_map]
      constructor
      · rintro ⟨a, ha, hax⟩
        rwa [← hf (List.mem_append_left _ ha) (List.mem_append_right _ List.mem_cons_self) hax]
      · exact fun hx => ⟨x, hx, rfl⟩
    rw [List.map_append, List.map_singleton, firstOccurrences_concat, firstOccurrences_concat, ih hbefore]
    simp only [hmem]
    split
    · rfl
    · rw [List.map_append, List.map_singleton]

theorem idxOf_map (hf : Set.InjOn f {a | a ∈ xs}) {a : α} (ha : a ∈ xs) : (xs.map f).idxOf (f a) = xs.idxOf a := by
  induction xs with
  | nil => cases ha
  | cons x xs ih =>
    rw [List.map_cons]
    by_cases hx : x = a
    · rw [hx, List.idxOf_cons_self, List.idxOf_cons_self]
    · have hfx : f x ≠ f a := fun heq => hx (hf List.mem_cons_self ha heq)
      have ha' : a ∈ xs := (List.mem_cons.1 ha).resolve_left (Ne.symm hx)
      have hf' : Set.InjOn f {a | a ∈ xs} := hf.mono fun a ha => List.mem_cons_of_mem _ ha
      rw [List.idxOf_cons_ne _ hfx, List.idxOf_cons_ne _ hx, ih hf' ha']

end FirstOccurrences

namespace Isomorphic

variable {a b c : Manifest}

theorem length_references (h : a.Isomorphic b) : a.references.length = b.references.length := by
  have hlength := congrArg List.length h.modules
  rwa [List.length_map, List.length_map] at hlength

theorem symm (h : a.Isomorphic b) : b.Isomorphic a where
  names := h.names.symm
  sizes := h.sizes.symm
  modules := h.modules.symm
  sharing i j hbi hbj hai haj := (h.sharing i j hai haj hbi hbj).symm

theorem trans (h : a.Isomorphic b) (h' : b.Isomorphic c) : a.Isomorphic c where
  names := h.names.trans h'.names
  sizes := h.sizes.trans h'.sizes
  modules := h.modules.trans h'.modules
  sharing i j hai haj hci hcj := by
    have hlength := h.length_references
    calc a.references[i] = a.references[j]
        ↔ b.references[i] = b.references[j] := h.sharing i j hai haj (hlength ▸ hai) (hlength ▸ haj)
      _ ↔ c.references[i] = c.references[j] := h'.sharing i j (hlength ▸ hai) (hlength ▸ haj) hci hcj

/-! ## Paired references -/

/-- The references of two manifests, place by place. -/
def pairs (a b : Manifest) : List (Fin a.modules.length × Fin b.modules.length) := a.references.zip b.references

theorem map_fst_pairs (h : a.Isomorphic b) : (pairs a b).map Prod.fst = a.references :=
  List.map_fst_zip h.length_references.le

theorem map_snd_pairs (h : a.Isomorphic b) : (pairs a b).map Prod.snd = b.references :=
  List.map_snd_zip h.length_references.ge

theorem eq_iff_of_mem_pairs (h : a.Isomorphic b) {r s : Fin a.modules.length × Fin b.modules.length}
    (hr : r ∈ pairs a b) (hs : s ∈ pairs a b) : r.1 = s.1 ↔ r.2 = s.2 := by
  obtain ⟨i, hi, rfl⟩ := List.mem_iff_getElem.1 hr
  obtain ⟨j, hj, rfl⟩ := List.mem_iff_getElem.1 hs
  simp only [pairs, List.length_zip, Nat.lt_min] at hi hj
  simp only [pairs, List.getElem_zip]
  exact h.sharing i j hi.1 hj.1 hi.2 hj.2

theorem injOn_fst (h : a.Isomorphic b) : Set.InjOn Prod.fst {r | r ∈ pairs a b} :=
  fun _ hr _ hs heq => Prod.ext heq ((h.eq_iff_of_mem_pairs hr hs).1 heq)

theorem injOn_snd (h : a.Isomorphic b) : Set.InjOn Prod.snd {r | r ∈ pairs a b} :=
  fun _ hr _ hs heq => Prod.ext ((h.eq_iff_of_mem_pairs hr hs).2 heq) heq

theorem firstUses_left (h : a.Isomorphic b) : a.firstUses = (firstOccurrences (pairs a b)).map Prod.fst := by
  rw [firstUses, ← firstOccurrences_map h.injOn_fst, h.map_fst_pairs]

theorem firstUses_right (h : a.Isomorphic b) : b.firstUses = (firstOccurrences (pairs a b)).map Prod.snd := by
  rw [firstUses, ← firstOccurrences_map h.injOn_snd, h.map_snd_pairs]

/-- Paired references refer to equal modules. -/
theorem module_eq (h : a.Isomorphic b) {r : Fin a.modules.length × Fin b.modules.length} (hr : r ∈ pairs a b) :
    a.module r.1 = b.module r.2 := by
  have hmap : (pairs a b).map (fun r => a.module r.1) = (pairs a b).map fun r => b.module r.2 :=
    calc (pairs a b).map (fun r => a.module r.1)
        = ((pairs a b).map Prod.fst).map a.module := (List.map_map ..).symm
      _ = ((pairs a b).map Prod.snd).map b.module := by rw [h.map_fst_pairs, h.map_snd_pairs, h.modules]
      _ = (pairs a b).map fun r => b.module r.2 := List.map_map ..
  exact List.map_inj_left.1 hmap r hr

/-- Paired references have the same rank. -/
theorem rank_eq (h : a.Isomorphic b) {r : Fin a.modules.length × Fin b.modules.length} (hr : r ∈ pairs a b) :
    a.rank r.1 = b.rank r.2 := by
  have hmem : r ∈ firstOccurrences (pairs a b) := mem_firstOccurrences.2 hr
  have hsubset : {r | r ∈ firstOccurrences (pairs a b)} ⊆ {r | r ∈ pairs a b} := fun _ => mem_firstOccurrences.1
  rw [rank, rank, h.firstUses_left, h.firstUses_right, idxOf_map (h.injOn_fst.mono hsubset) hmem,
    idxOf_map (h.injOn_snd.mono hsubset) hmem]

/-! ## First uses and ranks -/

/-- Isomorphic manifests use equal modules first in the same order. -/
theorem map_firstUses (h : a.Isomorphic b) : a.firstUses.map a.module = b.firstUses.map b.module := by
  rw [h.firstUses_left, h.firstUses_right, List.map_map, List.map_map]
  exact List.map_congr_left fun r hr => h.module_eq (mem_firstOccurrences.1 hr)

/-- The references of isomorphic manifests have the same ranks. -/
theorem map_rank (h : a.Isomorphic b) : a.references.map a.rank = b.references.map b.rank := by
  rw [← h.map_fst_pairs, ← h.map_snd_pairs, List.map_map, List.map_map]
  exact List.map_congr_left fun r hr => h.rank_eq hr

end Isomorphic

end ModuleCatalog.Manifest
