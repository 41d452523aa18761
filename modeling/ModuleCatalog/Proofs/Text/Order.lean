import Mathlib.Data.List.Lex
import Mathlib.Data.List.Sort
import Mathlib.Order.Defs.LinearOrder
import ModuleCatalog.Text.Order

/-!
# Lists in the order of names

Texts are ordered like the lists of their numbers, which is a linear order. So a list of different names has one
sorted form, and leaving names out before sorting or after it makes no difference.
-/

namespace ModuleCatalog

theorem CodePoint.toNat_injective : Function.Injective CodePoint.toNat := by
  intro a b h
  have hchar : ∀ c : Char, c.toNat < 0xD800 ∨ 0xDFFF < c.toNat := fun c => c.valid.imp id And.left
  cases a with
  | scalar c =>
    cases b with
    | scalar d => exact congrArg CodePoint.scalar (Char.toNat_inj.1 h)
    | surrogate offset =>
      have hc := hchar c
      simp only [CodePoint.toNat] at h
      omega
  | surrogate offset =>
    cases b with
    | scalar d =>
      have hd := hchar d
      simp only [CodePoint.toNat] at h
      omega
    | surrogate other =>
      simp only [CodePoint.toNat] at h
      exact congrArg CodePoint.surrogate (Fin.ext (Nat.add_left_cancel h))

namespace Text

/-! ## The order of texts -/

theorem before_iff {s t : Text} : before s t ↔ s.map CodePoint.toNat < t.map CodePoint.toNat := by
  induction s generalizing t with
  | nil => cases t <;> simp [before]
  | cons a s ih =>
    cases t with
    | nil => simp [before]
    | cons b t =>
      rw [before, List.map_cons, List.map_cons, List.cons_lt_cons_iff]
      by_cases hab : a = b
      · simp [hab, ih]
      · have hnat : a.toNat ≠ b.toNat := fun heq => hab (CodePoint.toNat_injective heq)
        simp [hab, hnat, CodePoint.before]

theorem not_before_iff {s t : Text} :
    (!before s t) = true ↔ t.map CodePoint.toNat ≤ s.map CodePoint.toNat := by
  rw [Bool.not_eq_true', ← Bool.not_eq_true, before_iff, not_lt]

theorem eq_of_not_before {s t : Text} (hst : (!before s t) = true) (hts : (!before t s) = true) : s = t :=
  List.map_injective_iff.2 CodePoint.toNat_injective
    (le_antisymm (not_before_iff.1 hts) (not_before_iff.1 hst))

/-! ## Sorted names -/

section Sorted

variable {names names' : List Text}

theorem perm_sorted (names : List Text) : (sorted names).Perm names := List.mergeSort_perm ..

theorem pairwise_sorted (names : List Text) :
    (sorted names).Pairwise fun s t => (!before t s) = true := by
  apply List.pairwise_mergeSort
  · intro a b c hab hbc
    rw [not_before_iff] at hab hbc ⊢
    exact le_trans hab hbc
  · intro a b
    rw [Bool.or_eq_true, not_before_iff, not_before_iff]
    exact le_total ..

/-- Elements that are made from others are sorted like these. -/
theorem sortOn_map {α β : Type} (key : β → Text) (f : α → β) (xs : List α) :
    sortOn key (xs.map f) = (sortOn (fun x => key (f x)) xs).map f := by
  have hmap : (xs.mergeSort fun a b => !before (key (f b)) (key (f a))).map f =
      (xs.map f).mergeSort fun a b => !before (key b) (key a) :=
    List.map_mergeSort fun _ _ _ _ => rfl
  rw [sortOn, sortOn, hmap]

theorem filter_sorted (hnodup : names.Nodup) (hnodup' : names'.Nodup) (h : names ⊆ names') :
    (sorted names').filter (· ∈ names) = sorted names := by
  have hperm : ((sorted names').filter (· ∈ names)).Perm (sorted names) := by
    rw [List.perm_ext_iff_of_nodup (((perm_sorted names').nodup_iff.2 hnodup').filter _)
      ((perm_sorted names).nodup_iff.2 hnodup)]
    intro name
    rw [List.mem_filter, (perm_sorted names').mem_iff, (perm_sorted names).mem_iff, decide_eq_true_eq]
    exact ⟨And.right, fun hname => ⟨h hname, hname⟩⟩
  apply hperm.eq_of_pairwise
  · exact fun s t _ _ hst hts => eq_of_not_before hts hst
  · exact (pairwise_sorted names').filter _
  · exact pairwise_sorted names

/-- Names that contribute nothing may come and go. -/
theorem flatMap_sorted {α : Type} {f : Text → List α} (hnodup : names.Nodup) (hnodup' : names'.Nodup)
    (h : names ⊆ names') (hf : ∀ name ∈ names', name ∉ names → f name = []) :
    (sorted names').flatMap f = (sorted names).flatMap f := by
  have hskip : ∀ ts : List Text, ts ⊆ names' → ts.flatMap f = (ts.filter (· ∈ names)).flatMap f := by
    intro ts hts
    induction ts with
    | nil => rfl
    | cons name ts ih =>
      have hrest := ih (List.subset_of_cons_subset hts)
      by_cases hname : name ∈ names
      · rw [List.filter_cons_of_pos (by simpa using hname), List.flatMap_cons, List.flatMap_cons, hrest]
      · rw [List.filter_cons_of_neg (by simpa using hname), List.flatMap_cons,
          hf name (hts List.mem_cons_self) hname, List.nil_append, hrest]
  calc (sorted names').flatMap f
      = ((sorted names').filter (· ∈ names)).flatMap f := hskip _ (perm_sorted names').subset
    _ = (sorted names).flatMap f := by rw [filter_sorted hnodup hnodup' h]

end Sorted

end Text

end ModuleCatalog
