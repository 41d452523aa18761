import Mathlib.Algebra.GroupWithZero.Nat
import Mathlib.Data.List.FinRange
import ModuleCatalog.Proofs.Manifest.Buckets

/-!
# The names of a manifest and what is listed under them

The names of a manifest are those of the categories of its modules in the order of their first uses, and every
bucket lists a module as many times as the module uses the name, in the order in which the modules come. Isomorphic
manifests have the same names, with buckets of the same sizes.
-/

namespace ModuleCatalog.Manifest

variable {α : Type}

/-- The names of all categories of modules, one after the other. -/
def uses (modules : List Module) : List Text := modules.flatMap fun m => m.categories.map Category.name

theorem mem_uses {modules : List Module} {name : Text} :
    name ∈ uses modules ↔ ∃ m ∈ modules, ∃ category ∈ m.categories, category.name = name := by
  simp only [uses, List.mem_flatMap, List.mem_map]

/-! ## Manifests of modules -/

section References

variable (modules : List Module) (references more : List (Fin modules.length)) (name : Text)

/-- Names come in the order of their first uses. -/
theorem names_ofReferences :
    (ofReferences modules references).names = firstOccurrences (uses (references.map modules.get)) := by
  rw [uses, List.flatMap_map]
  exact keys_bucketsOf _ references

theorem referencesTo_ofReferences :
    (ofReferences modules references).referencesTo name = references.flatMap fun reference =>
      List.replicate ((modules.get reference).categories.countP fun category => category.name = name) reference :=
  under_bucketsOf _ references name

theorem length_references_ofReferences :
    (ofReferences modules references).references.length =
      (references.map fun reference => (modules.get reference).categories.length).sum := by
  have hperm := perm_listed_bucketsOf (fun reference : Fin modules.length => modules[reference].categories) references
  have hlength := hperm.length_eq
  simp only [List.length_flatMap, List.length_replicate] at hlength
  exact hlength

/-- A manifest of modules, some of which may be taken several times. Its names are those of the categories of the
modules in the order of their first uses. No bucket is empty, and each lists only modules that declare its name: in
their order, each as many times as it has categories of that name. In all there are as many references as categories.
More modules are listed by appending their own buckets name by name. -/
theorem ofReferences_spec :
    (∀ name, name ∈ (ofReferences modules references).names ↔ name ∈ uses (references.map modules.get)) ∧
    ((ofReferences modules references).names.Pairwise fun a b =>
      (uses (references.map modules.get)).idxOf a < (uses (references.map modules.get)).idxOf b) ∧
    (∀ bucket ∈ (ofReferences modules references).buckets, bucket.2 ≠ [] ∧
      ∀ reference ∈ bucket.2, ∃ category ∈ (modules.get reference).categories, category.name = bucket.1) ∧
    (∀ name, (ofReferences modules references).referencesTo name = references.flatMap fun reference =>
      List.replicate ((modules.get reference).categories.countP fun category => category.name = name) reference) ∧
    (ofReferences modules references).references.length =
      (references.map fun reference => (modules.get reference).categories.length).sum ∧
    (ofReferences modules (references ++ more)).buckets =
      appended (ofReferences modules references).buckets (ofReferences modules more).buckets := by
  have hnames := names_ofReferences modules references
  refine ⟨fun name => ?_, ?_, fun bucket hbucket => ⟨bucket_ne_nil _ references hbucket, fun reference hmem => ?_⟩,
    referencesTo_ofReferences modules references, length_references_ofReferences modules references,
    bucketsOf_append _ references more⟩
  · rw [hnames, mem_firstOccurrences]
  · rw [hnames]
    exact pairwise_firstOccurrences _
  · exact ((mem_bucket_iff _ references hbucket).1 hmem).2

end References

/-! ## Manifests of different modules -/

section Build

variable {modules : List Module} {name : Text}

/-- Names come in the order of their first uses. -/
theorem names_build (modules : List Module) : (build modules).names = firstOccurrences (uses modules) := by
  rw [build, names_ofReferences, List.map_get_finRange]

/-- The names of a manifest are those of the categories of its modules. -/
theorem mem_keys_build :
    name ∈ Assoc.keys (build modules).buckets ↔ ∃ m ∈ modules, ∃ category ∈ m.categories, category.name = name := by
  have hnames : Assoc.keys (build modules).buckets = firstOccurrences (uses modules) := names_build modules
  rw [hnames, mem_firstOccurrences, mem_uses]

end Build

/-! ## Isomorphic manifests -/

variable {a b : Manifest}

theorem Isomorphic.names_eq (h : a.Isomorphic b) : a.names = b.names := h.names

theorem flatten_map_buckets (m : Manifest) (f : Fin m.modules.length → α) :
    (m.buckets.map fun bucket => bucket.2.map f).flatten = m.references.map f := by
  rw [references, List.map_flatMap, List.flatMap_def]

/-- What isomorphic manifests have alike in all their references they have alike bucket by bucket. -/
theorem Isomorphic.map_buckets (h : a.Isomorphic b) {f : Fin a.modules.length → α} {g : Fin b.modules.length → α}
    (hfg : a.references.map f = b.references.map g) :
    (a.buckets.map fun bucket => bucket.2.map f) = b.buckets.map fun bucket => bucket.2.map g := by
  rw [List.eq_iff_flatten_eq, flatten_map_buckets, flatten_map_buckets]
  refine ⟨hfg, ?_⟩
  simp only [List.map_map, Function.comp_def, List.length_map]
  exact h.sizes

theorem Isomorphic.buckets_eq (h : a.Isomorphic b) :
    (a.buckets.map fun bucket => bucket.2.map a.module) = b.buckets.map fun bucket => bucket.2.map b.module :=
  h.map_buckets h.modules

/-- Isomorphic manifests list equal modules under every name. -/
theorem Isomorphic.members_eq (h : a.Isomorphic b) (name : Text) : a.members name = b.members name := by
  have hmembers : ∀ m : Manifest, m.members name = (Assoc.get? name
      ((Assoc.keys m.buckets).zip (m.buckets.map fun bucket => bucket.2.map m.module))).getD [] := by
    intro m
    rw [← Assoc.map_get?, members, referencesTo]
    cases Assoc.get? name m.buckets <;> rfl
  rw [hmembers, hmembers, h.names, h.buckets_eq]

theorem contains_iff {m : Manifest} {name : Text} : m.contains name ↔ name ∈ m.names := by
  rw [contains, names, Option.isSome_iff_ne_none, ne_eq, Assoc.get?_eq_none_iff, not_not]

/-- A member is what a reference of the manifest leads to. -/
theorem exists_reference_of_mem_members {m : Manifest} {name : Text} {found : Module} (h : found ∈ m.members name) :
    ∃ reference ∈ m.references, m.module reference = found := by
  obtain ⟨reference, hreference, hmodule⟩ := List.mem_map.1 h
  cases hget : Assoc.get? name m.buckets with
  | none =>
    rw [referencesTo, hget] at hreference
    cases hreference
  | some references =>
    rw [referencesTo, hget, Option.getD_some] at hreference
    have hbucket := (Assoc.get?_eq_some_iff m.nodup_names).1 hget
    exact ⟨reference, List.mem_flatMap.2 ⟨_, hbucket, hreference⟩, hmodule⟩

end ModuleCatalog.Manifest
