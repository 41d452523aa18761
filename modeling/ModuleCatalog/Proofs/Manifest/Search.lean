import ModuleCatalog.Category.Parser
import ModuleCatalog.Proofs.Manifest.Names

/-!
# Modules found by their attributes

A manifest lists a module once for each of its categories of a name, while a search judges it by the first of them.
So it finds all the places of a module or none: as many as the module has categories that meet the constraints if
these all do or all do not, and too many or too few otherwise. What two lists of constraints find is what both of
them find, in the order of either.
-/

namespace ModuleCatalog

/-! ## Categories of a name -/

namespace Module

/-- The categories of a name that a module declares, in their order. -/
def declarations (m : Module) (name : Text) : List Category := m.categories.filter fun c => c.name = name

/-- Whether a search finds a module that it comes across. -/
def isFound (m : Module) (name : Text) (constraints : List (Text × Wanted)) : Bool :=
  (m.category? name).any fun c => c.meets constraints

variable (m : Module) (name : Text)

theorem category?_eq_head? : m.category? name = (m.declarations name).head? := List.head?_filter.symm

theorem length_declarations : (m.declarations name).length = m.categories.countP fun c => c.name = name :=
  List.countP_eq_length_filter.symm

theorem isFound_append (constraints others : List (Text × Wanted)) :
    m.isFound name (constraints ++ others) = (m.isFound name constraints && m.isFound name others) := by
  unfold isFound
  cases m.category? name with
  | none => rfl
  | some c => exact List.all_append

theorem isFound_nil : m.isFound name [] ↔ ∃ c ∈ m.categories, c.name = name := by
  have hmeets : m.isFound name [] = (m.category? name).isSome := by
    unfold isFound
    cases m.category? name <;> rfl
  rw [hmeets, category?, List.find?_isSome]
  simp only [decide_eq_true_eq]

end Module

namespace Manifest

/-! ## What a search finds -/

section Find

variable (m : Manifest) (name : Text) (constraints others : List (Text × Wanted))

theorem find_eq_filter : m.find name constraints = (m.members name).filter fun found => found.isFound name constraints := by
  apply List.filter_congr
  intro found _
  unfold Module.isFound
  cases found.category? name <;> rfl

theorem mem_find_iff {found : Module} :
    found ∈ m.find name constraints ↔ found ∈ m.members name ∧ found.isFound name constraints := by
  rw [find_eq_filter, List.mem_filter]

/-- More constraints leave what fulfils them as well. -/
theorem find_append :
    m.find name (constraints ++ others) =
      (m.find name constraints).filter fun found => found ∈ m.find name others := by
  have hfound : ∀ found ∈ m.members name, (found ∈ m.find name others ↔ found.isFound name others) := by
    intro found hmem
    rw [mem_find_iff, and_iff_right hmem]
  rw [find_eq_filter m name (constraints ++ others), find_eq_filter m name constraints, List.filter_filter]
  apply List.filter_congr
  intro found hmem
  simp only [hfound found hmem, Bool.decide_eq_true]
  rw [Module.isFound_append, Bool.and_comm]

/-- Without constraints all modules are found that declare the name under which they are listed. -/
theorem find_nil (h : ∀ found ∈ m.members name, ∃ c ∈ found.categories, c.name = name) :
    m.find name [] = m.members name := by
  rw [find_eq_filter, List.filter_eq_self]
  exact fun found hmem => (found.isFound_nil name).2 (h found hmem)

end Find

/-! ## Places and categories -/

section Places

variable {α : Type} [DecidableEq α]

theorem count_flatMap_replicate (f : α → Nat) (xs : List α) (a : α) :
    (xs.flatMap fun x => List.replicate (f x) x).count a = xs.count a * f a := by
  induction xs with
  | nil => exact (Nat.zero_mul (f a)).symm
  | cons x xs ih =>
    rw [List.flatMap_cons, List.count_append, ih, List.count_replicate, List.count_cons]
    by_cases hx : x = a
    · rw [if_pos (beq_iff_eq.2 hx), if_pos (beq_iff_eq.2 hx), Nat.add_mul, Nat.one_mul, Nat.add_comm, hx]
    · rw [if_neg (mt beq_iff_eq.1 hx), if_neg (mt beq_iff_eq.1 hx), Nat.zero_add, Nat.add_zero]

/-- Elements that come several times each are the same lists only if each comes equally often. -/
theorem flatMap_replicate_eq_iff {f g : α → Nat} {xs : List α} :
    (xs.flatMap fun x => List.replicate (f x) x) = (xs.flatMap fun x => List.replicate (g x) x) ↔
      ∀ x ∈ xs, f x = g x := by
  constructor
  · intro heq x hx
    have hcount := congrArg (List.count x) heq
    rw [count_flatMap_replicate, count_flatMap_replicate] at hcount
    exact Nat.eq_of_mul_eq_mul_left (List.count_pos_iff.2 hx) hcount
  · intro h
    rw [List.flatMap_def, List.flatMap_def]
    congr 1
    exact List.map_congr_left fun x hx => by rw [h x hx]

end Places

/-- The first element may speak for all of them exactly if they agree. -/
theorem head?_any_eq_countP_iff {α : Type} (p : α → Bool) (xs : List α) :
    (if xs.head?.any p then xs.length else 0) = xs.countP p ↔ ∀ a ∈ xs, ∀ b ∈ xs, p a = p b := by
  cases xs with
  | nil => exact ⟨fun _ _ h => absurd h List.not_mem_nil, fun _ => rfl⟩
  | cons first rest =>
    have hfirst : (∀ a ∈ first :: rest, ∀ b ∈ first :: rest, p a = p b) ↔ ∀ a ∈ first :: rest, p a = p first :=
      ⟨fun h a ha => h a ha first List.mem_cons_self, fun h a ha b hb => (h a ha).trans (h b hb).symm⟩
    rw [hfirst, List.head?_cons, Option.any_some, eq_comm]
    cases hp : p first with
    | false => rw [if_neg Bool.false_ne_true, List.countP_eq_zero]; simp only [Bool.not_eq_true]
    | true => rw [if_pos rfl, List.countP_eq_length]

/-! ## Manifests of modules -/

section References

variable (modules : List Module) (references : List (Fin modules.length)) (name : Text)
  (constraints : List (Text × Wanted))

theorem members_ofReferences :
    (ofReferences modules references).members name =
      (references.map modules.get).flatMap fun found => List.replicate (found.declarations name).length found :=
  calc (ofReferences modules references).members name
      = (under name (bucketsOf (fun reference : Fin modules.length => modules[reference].categories)
          references)).map modules.get := rfl
    _ = (references.map modules.get).flatMap fun found => List.replicate (found.declarations name).length found := by
        rw [under_bucketsOf, List.map_flatMap, List.flatMap_map]
        simp only [List.map_replicate, Module.length_declarations]
        rfl

theorem declares_of_mem_members {found : Module} (h : found ∈ (ofReferences modules references).members name) :
    ∃ c ∈ found.categories, c.name = name := by
  rw [members_ofReferences, List.mem_flatMap] at h
  obtain ⟨other, -, hmem⟩ := h
  obtain ⟨hlength, rfl⟩ := List.mem_replicate.1 hmem
  obtain ⟨c, hc⟩ := List.exists_mem_of_ne_nil _ (mt List.length_eq_zero_iff.2 hlength)
  exact ⟨c, (List.mem_filter.1 hc).1, of_decide_eq_true (List.mem_filter.1 hc).2⟩

theorem find_ofReferences :
    (ofReferences modules references).find name constraints =
      (references.map modules.get).flatMap fun found =>
        List.replicate (if found.isFound name constraints then (found.declarations name).length else 0) found := by
  rw [find_eq_filter, members_ofReferences, List.filter_flatMap]
  congr 1
  funext found
  rw [List.filter_replicate]
  split
  · rfl
  · rfl

/-- A search takes all places of a module whose first category of the name meets the constraints, and no place of
any other one. These are as many places as the module has categories of the name that meet the constraints exactly
if, in each of the modules, all categories of the name meet the constraints or none does. -/
theorem find_ofReferences_eq_iff :
    ((ofReferences modules references).find name constraints =
      (references.map modules.get).flatMap fun found =>
        List.replicate (if found.isFound name constraints then (found.declarations name).length else 0) found) ∧
    ((ofReferences modules references).find name constraints =
      ((references.map modules.get).flatMap fun found =>
        List.replicate ((found.declarations name).countP fun c => c.meets constraints) found) ↔
      ∀ found ∈ references.map modules.get, ∀ c ∈ found.declarations name, ∀ d ∈ found.declarations name,
        c.meets constraints = d.meets constraints) := by
  have hfind := find_ofReferences modules references name constraints
  refine ⟨hfind, ?_⟩
  rw [hfind, flatMap_replicate_eq_iff]
  refine forall₂_congr fun found _ => ?_
  rw [Module.isFound, Module.category?_eq_head?]
  exact head?_any_eq_countP_iff _ _

end References

/-- A module that declares a name twice, with values of two keys. -/
def twoServices : Module := ⟨"A", "B", Category.parseAll "svc(a=1) svc(b=2)"⟩

/-- The first category of a name is found twice, and the second one is not found. -/
theorem not_find_twoServices :
    ((build [twoServices]).find "svc" [("a", .value "1")] ≠ [twoServices].flatMap fun found =>
      List.replicate ((found.declarations "svc").countP fun c => c.meets [("a", .value "1")]) found) ∧
    ((build [twoServices]).find "svc" [("b", .value "2")] ≠ [twoServices].flatMap fun found =>
      List.replicate ((found.declarations "svc").countP fun c => c.meets [("b", .value "2")]) found) := by
  decide

end Manifest

end ModuleCatalog
