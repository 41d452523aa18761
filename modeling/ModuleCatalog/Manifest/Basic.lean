import ModuleCatalog.Assoc
import ModuleCatalog.Category.Basic

/-!
# Manifests

A manifest lists modules under category names. Several places may refer to the same module, and two
equal modules may still be different ones, so the modules stand in a table and the buckets refer to
places of the table. Two manifests are isomorphic if they have the same names in the same order, with
equal members that are shared in the same way. The normal form of a manifest keeps the modules that are
referred to, in the order of the first reference.
-/

namespace ModuleCatalog

/-- Buckets of references into a table of modules; no name has two buckets. -/
structure Manifest where
  modules : List Module
  buckets : List (Text × List (Fin modules.length))
  nodup_names : (Assoc.keys buckets).Nodup

namespace Manifest

instance : Inhabited Manifest := ⟨⟨[], [], List.nodup_nil⟩⟩

/-- The module at a place of the table. -/
def module (m : Manifest) (reference : Fin m.modules.length) : Module := m.modules[reference]

/-- All references, bucket by bucket. -/
def references (m : Manifest) : List (Fin m.modules.length) := m.buckets.flatMap (·.2)

/-- The elements of a list without repetitions, in the order of their first occurrences. -/
def firstOccurrences {α : Type} [DecidableEq α] (xs : List α) : List α :=
  xs.foldl (fun seen x => if x ∈ seen then seen else seen ++ [x]) []

/-- The references without repetitions, in the order of their first use. -/
def firstUses (m : Manifest) : List (Fin m.modules.length) := firstOccurrences m.references

/-- The number of modules that are referred to. -/
def moduleCount (m : Manifest) : Nat := m.firstUses.length

section FirstOccurrences

variable {α : Type} [DecidableEq α]

theorem mem_foldl_firstOccurrences (xs seen : List α) (a : α) :
    a ∈ xs.foldl (fun seen x => if x ∈ seen then seen else seen ++ [x]) seen ↔ a ∈ seen ∨ a ∈ xs := by
  induction xs generalizing seen with
  | nil => simp
  | cons x xs ih =>
    rw [List.foldl_cons, ih]
    by_cases hx : x ∈ seen
    · rw [if_pos hx, List.mem_cons]
      constructor
      · rintro (h | h)
        · exact Or.inl h
        · exact Or.inr (Or.inr h)
      · rintro (h | rfl | h)
        · exact Or.inl h
        · exact Or.inl hx
        · exact Or.inr h
    · rw [if_neg hx, List.mem_append, List.mem_singleton, List.mem_cons, or_assoc]

theorem mem_firstOccurrences {xs : List α} {a : α} : a ∈ firstOccurrences xs ↔ a ∈ xs := by
  rw [firstOccurrences, mem_foldl_firstOccurrences]
  simp

end FirstOccurrences

/-- Buckets whose references have been replaced keep their names. -/
theorem keys_map_references {α β : Type} (buckets : List (Text × List α)) (f : List α → List β) :
    Assoc.keys (buckets.map fun (name, references) => (name, f references)) = Assoc.keys buckets := by
  simp only [Assoc.keys, List.map_map]
  rfl

/-- The place of a reference among the first uses; a reference that is never used is left where the
list ends. -/
def rank (m : Manifest) (reference : Fin m.modules.length) : Nat := m.firstUses.idxOf reference

/-- The rank of a reference as a place of a table of a size, if the table reaches that far. -/
def place? (m : Manifest) (size : Nat) (reference : Fin m.modules.length) : Option (Fin size) :=
  if h : m.rank reference < size then some ⟨m.rank reference, h⟩ else none

/-- The same manifest with each used module stored once, in the order of first use. -/
def normal (m : Manifest) : Manifest :=
  let table := m.firstUses.map m.module
  { modules := table
    buckets := m.buckets.map fun (name, references) =>
      (name, references.filterMap (m.place? table.length))
    nodup_names := by rw [keys_map_references]; exact m.nodup_names }

/-- Same names in the same order; members pairwise equal, and shared in one manifest exactly when they
are shared in the other. -/
structure Isomorphic (a b : Manifest) : Prop where
  names : Assoc.keys a.buckets = Assoc.keys b.buckets
  sizes : a.buckets.map (·.2.length) = b.buckets.map (·.2.length)
  modules : a.references.map a.module = b.references.map b.module
  sharing : ∀ (i j : Nat) (hai : i < a.references.length) (haj : j < a.references.length)
    (hbi : i < b.references.length) (hbj : j < b.references.length),
    a.references[i] = a.references[j] ↔ b.references[i] = b.references[j]

end Manifest

end ModuleCatalog
