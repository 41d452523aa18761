import Mathlib.Data.List.Basic
import Mathlib.Data.List.Induction
import ModuleCatalog.Manifest.Basic

/-!
# The normal form of a manifest

The rank of a reference tells used modules apart, and the normal form has the ranks for its references.
It is therefore isomorphic to the manifest that it comes from.
-/

namespace ModuleCatalog.Manifest

/-! ## First uses -/

section FirstOccurrences

variable {α : Type} [DecidableEq α]

theorem nodup_foldl_firstOccurrences (xs seen : List α) (hseen : seen.Nodup) :
    (xs.foldl (fun seen x => if x ∈ seen then seen else seen ++ [x]) seen).Nodup := by
  induction xs generalizing seen with
  | nil => exact hseen
  | cons x xs ih =>
    rw [List.foldl_cons]
    apply ih
    by_cases hx : x ∈ seen
    · rw [if_pos hx]
      exact hseen
    · rw [if_neg hx, List.nodup_append]
      refine ⟨hseen, by simp, ?_⟩
      intro a ha b hb hab
      rw [List.mem_singleton] at hb
      exact hx (hb ▸ hab ▸ ha)

theorem nodup_firstOccurrences (xs : List α) : (firstOccurrences xs).Nodup :=
  nodup_foldl_firstOccurrences xs [] List.nodup_nil

theorem firstOccurrences_concat (xs : List α) (x : α) :
    firstOccurrences (xs ++ [x]) =
      if x ∈ xs then firstOccurrences xs else firstOccurrences xs ++ [x] := by
  have hstep : firstOccurrences (xs ++ [x]) =
      if x ∈ firstOccurrences xs then firstOccurrences xs else firstOccurrences xs ++ [x] := by
    rw [firstOccurrences, List.foldl_append]
    rfl
  simp only [hstep, mem_firstOccurrences]

/-- First occurrences come in the order in which they occur. -/
theorem pairwise_firstOccurrences [BEq α] [LawfulBEq α] (xs : List α) :
    (firstOccurrences xs).Pairwise fun a b => xs.idxOf a < xs.idxOf b := by
  induction xs using List.reverseRecOn with
  | nil => exact .nil
  | append_singleton xs x ih =>
    have hbefore : (firstOccurrences xs).Pairwise
        fun a b => (xs ++ [x]).idxOf a < (xs ++ [x]).idxOf b := by
      apply ih.imp_of_mem
      intro a b ha hb hab
      rwa [List.idxOf_append_of_mem (mem_firstOccurrences.1 ha),
        List.idxOf_append_of_mem (mem_firstOccurrences.1 hb)]
    rw [firstOccurrences_concat]
    split
    · exact hbefore
    · next hx =>
      rw [List.pairwise_append]
      refine ⟨hbefore, List.pairwise_singleton .., fun a ha b hb => ?_⟩
      have hmem := mem_firstOccurrences.1 ha
      rw [List.mem_singleton.1 hb, List.idxOf_append_of_mem hmem, List.idxOf_append_of_notMem hx]
      exact Nat.lt_add_right _ (List.idxOf_lt_length_of_mem hmem)

end FirstOccurrences

theorem nodup_firstUses (m : Manifest) : m.firstUses.Nodup := nodup_firstOccurrences m.references

theorem mem_firstUses {m : Manifest} {reference : Fin m.modules.length} :
    reference ∈ m.firstUses ↔ reference ∈ m.references := mem_firstOccurrences

theorem mem_references {m : Manifest} {bucket : Text × List (Fin m.modules.length)}
    (hbucket : bucket ∈ m.buckets) {reference : Fin m.modules.length}
    (hreference : reference ∈ bucket.2) : reference ∈ m.references :=
  List.mem_flatMap.2 ⟨bucket, hbucket, hreference⟩

/-! ## Ranks -/

theorem rank_lt {m : Manifest} {reference : Fin m.modules.length} (h : reference ∈ m.references) :
    m.rank reference < m.firstUses.length :=
  List.idxOf_lt_length_of_mem (mem_firstUses.2 h)

theorem getElem_rank {m : Manifest} {reference : Fin m.modules.length}
    (h : m.rank reference < m.firstUses.length) : m.firstUses[m.rank reference] = reference :=
  List.getElem_idxOf h

theorem rank_inj {m : Manifest} {r s : Fin m.modules.length} (hr : r ∈ m.references)
    (hs : s ∈ m.references) : m.rank r = m.rank s ↔ r = s := by
  constructor
  · intro heq
    rw [← getElem_rank (rank_lt hr), ← getElem_rank (rank_lt hs)]
    simp only [heq]
  · exact congrArg m.rank

/-! ## References of the normal form -/

theorem length_modules_normal (m : Manifest) : m.normal.modules.length = m.firstUses.length :=
  List.length_map _

/-- A used reference at its place in the normal form. -/
def placed (m : Manifest) (reference : Fin m.modules.length) (h : reference ∈ m.references) :
    Fin m.normal.modules.length :=
  ⟨m.rank reference, by rw [length_modules_normal]; exact rank_lt h⟩

theorem placed_inj {m : Manifest} {r s : Fin m.modules.length} (hr : r ∈ m.references)
    (hs : s ∈ m.references) : m.placed r hr = m.placed s hs ↔ r = s := by
  rw [Fin.ext_iff]
  exact rank_inj hr hs

theorem module_placed {m : Manifest} {reference : Fin m.modules.length}
    (h : reference ∈ m.references) :
    m.normal.module (m.placed reference h) = m.module reference := by
  have hlt := rank_lt h
  have hget : m.normal.module (m.placed reference h) = m.module m.firstUses[m.rank reference] :=
    List.getElem_map _
  rw [hget, getElem_rank]

theorem filterMap_place? (m : Manifest) (references : List (Fin m.modules.length))
    (h : ∀ reference ∈ references, reference ∈ m.references) :
    references.filterMap (m.place? m.normal.modules.length) = references.pmap m.placed h := by
  induction references with
  | nil => rfl
  | cons reference references ih =>
    have hlt : m.rank reference < m.normal.modules.length := by
      rw [length_modules_normal]
      exact rank_lt (h reference List.mem_cons_self)
    have hplace : m.place? m.normal.modules.length reference = some ⟨m.rank reference, hlt⟩ :=
      dif_pos hlt
    rw [List.filterMap_cons_some hplace, List.pmap_cons,
      ih fun other hother => h other (List.mem_cons_of_mem _ hother)]
    rfl

theorem references_normal (m : Manifest) :
    m.normal.references = m.references.pmap m.placed fun _ h => h := by
  rw [← filterMap_place? m m.references fun _ h => h]
  unfold references
  rw [List.filterMap_flatMap]
  simp only [normal, List.flatMap_map]

/-- The normal form of a manifest is isomorphic to it. -/
theorem isomorphic_normal (m : Manifest) : m.Isomorphic m.normal where
  names := (keys_map_references m.buckets _).symm
  sizes := by
    simp only [normal, List.map_map]
    apply List.map_congr_left
    intro bucket hbucket
    have hmem : ∀ reference ∈ bucket.2, reference ∈ m.references := fun _ => mem_references hbucket
    have hlength := congrArg List.length (filterMap_place? m bucket.2 hmem)
    rw [List.length_pmap] at hlength
    exact hlength.symm
  modules := by
    rw [references_normal, List.map_pmap]
    calc m.references.map m.module
        = m.references.pmap (fun reference _ => m.module reference) (fun _ h => h) :=
          (List.pmap_eq_map _).symm
      _ = m.references.pmap (fun reference h => m.normal.module (m.placed reference h))
            (fun _ h => h) := by
          apply List.pmap_congr_left
          intro reference _ h _
          exact (module_placed h).symm
  sharing := by
    intro i j hai haj hbi hbj
    simp only [references_normal, List.getElem_pmap]
    exact (placed_inj _ _).symm

end ModuleCatalog.Manifest
