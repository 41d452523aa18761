import ModuleCatalog.Manifest.Build
import ModuleCatalog.Manifest.Lookup
import ModuleCatalog.Proofs.Manifest.NormalForm

/-!
# The buckets of a manifest

Listing more references under a name extends one bucket, and a manifest is built by extending one bucket after the
other. What is listed under a name, the order of the names and the number of all references are followed through one
such step and from there through a whole list of them. As buckets are determined by their names and by what is listed
under each, building a manifest in two parts and appending the second one name by name gives the same buckets.
-/

namespace ModuleCatalog.Manifest

variable {α : Type}

/-! ## References under a name -/

/-- What is listed under a name, nothing if there is no such name. -/
def under (name : Text) (buckets : List (Text × List α)) : List α := (Assoc.get? name buckets).getD []

theorem under_cons (name : Text) (bucket : Text × List α) (buckets : List (Text × List α)) :
    under name (bucket :: buckets) = if bucket.1 = name then bucket.2 else under name buckets := by
  rw [under, Assoc.get?]
  split
  · rfl
  · rfl

theorem under_of_not_mem {name : Text} {buckets : List (Text × List α)} (h : name ∉ Assoc.keys buckets) :
    under name buckets = [] := by
  rw [under, Assoc.get?_eq_none_iff.2 h, Option.getD_none]

section Distinct

variable {buckets others : List (Text × List α)} (h : (Assoc.keys buckets).Nodup)

include h

theorem under_of_mem {bucket : Text × List α} (hmem : bucket ∈ buckets) : under bucket.1 buckets = bucket.2 := by
  rw [under, (Assoc.get?_eq_some_iff h).2 hmem, Option.getD_some]

theorem under_eq_flatMap (name : Text) :
    under name buckets = buckets.flatMap fun bucket => if bucket.1 = name then bucket.2 else [] := by
  induction buckets with
  | nil => rfl
  | cons bucket buckets ih =>
    obtain ⟨hfirst, hrest⟩ := List.nodup_cons.1 h
    rw [under_cons, List.flatMap_cons, ← ih hrest]
    split
    · next hname => rw [under_of_not_mem (hname ▸ hfirst), List.append_nil]
    · rfl

theorem map_under : ((Assoc.keys buckets).map fun name => (name, under name buckets)) = buckets :=
  calc ((Assoc.keys buckets).map fun name => (name, under name buckets))
      = buckets.map fun bucket => (bucket.1, under bucket.1 buckets) := List.map_map
    _ = buckets.map id := List.map_congr_left fun _ hmem => Prod.ext rfl (under_of_mem h hmem)
    _ = buckets := List.map_id buckets

/-- Buckets are determined by their names and by what is listed under each. -/
theorem ext_under (hkeys : Assoc.keys buckets = Assoc.keys others)
    (hunder : ∀ name, under name buckets = under name others) : buckets = others := by
  have hothers : (Assoc.keys others).Nodup := hkeys ▸ h
  calc buckets
      = (Assoc.keys buckets).map fun name => (name, under name buckets) := (map_under h).symm
    _ = (Assoc.keys others).map fun name => (name, under name others) := by simp only [hkeys, hunder]
    _ = others := map_under hothers

end Distinct

/-! ## Extending a bucket -/

/-- Buckets after more references have been listed under a name. -/
def extended (name : Text) (more : List α) (buckets : List (Text × List α)) : List (Text × List α) :=
  Assoc.update name (· ++ more) [] buckets

/-- The references that are listed in buckets. -/
def listed (buckets : List (Text × List α)) : List α := buckets.flatMap (·.2)

theorem listed_cons (bucket : Text × List α) (buckets : List (Text × List α)) :
    listed (bucket :: buckets) = bucket.2 ++ listed buckets := rfl

section Extended

variable (name : Text) (more : List α) (buckets : List (Text × List α))

theorem extended_cons (bucket : Text × List α) :
    extended name more (bucket :: buckets) =
      if bucket.1 = name then (bucket.1, bucket.2 ++ more) :: buckets else bucket :: extended name more buckets := rfl

theorem keys_extended : Assoc.keys (extended name more buckets) = Assoc.keysWith name (Assoc.keys buckets) :=
  Assoc.keys_update ..

theorem under_extended (other : Text) :
    under other (extended name more buckets) = under other buckets ++ if name = other then more else [] := by
  induction buckets with
  | nil =>
    rw [extended, Assoc.update, under_cons]
    split
    · rfl
    · rfl
  | cons bucket buckets ih =>
    rw [extended_cons, under_cons]
    by_cases hfirst : bucket.1 = name
    · rw [if_pos hfirst, under_cons, hfirst]
      split
      · rfl
      · rw [List.append_nil]
    · rw [if_neg hfirst, under_cons, ih]
      split
      · next hother => rw [if_neg fun heq => hfirst (hother.trans heq.symm), List.append_nil]
      · rfl

/-- No reference is lost when a bucket is extended. -/
theorem perm_listed_extended : (listed (extended name more buckets)).Perm (listed buckets ++ more) := by
  induction buckets with
  | nil =>
    have hsingle : listed (extended name more []) = more ++ [] := rfl
    rw [hsingle, List.append_nil]
    exact .refl more
  | cons bucket buckets ih =>
    rw [extended_cons]
    split
    · rw [listed_cons, listed_cons, List.append_assoc, List.append_assoc]
      exact List.perm_append_comm.append_left bucket.2
    · rw [listed_cons, listed_cons, List.append_assoc]
      exact ih.append_left bucket.2

end Extended

/-! ## Appending buckets -/

/-- Buckets after all that is listed in others has been listed under the same names. -/
def appended (buckets others : List (Text × List α)) : List (Text × List α) :=
  others.foldl (fun buckets bucket => extended bucket.1 bucket.2 buckets) buckets

section Appended

variable (buckets others : List (Text × List α))

theorem appended_cons (bucket : Text × List α) :
    appended buckets (bucket :: others) = appended (extended bucket.1 bucket.2 buckets) others := rfl

theorem keys_appended :
    Assoc.keys (appended buckets others) =
      (Assoc.keys others).foldl (fun seen name => Assoc.keysWith name seen) (Assoc.keys buckets) := by
  induction others generalizing buckets with
  | nil => rfl
  | cons bucket others ih =>
    rw [appended_cons, ih, keys_extended]
    rfl

theorem under_appended (name : Text) :
    under name (appended buckets others) =
      under name buckets ++ others.flatMap fun bucket => if bucket.1 = name then bucket.2 else [] := by
  induction others generalizing buckets with
  | nil =>
    rw [List.flatMap_nil, List.append_nil]
    rfl
  | cons bucket others ih => rw [appended_cons, ih, under_extended, List.flatMap_cons, List.append_assoc]

theorem perm_listed_appended : (listed (appended buckets others)).Perm (listed buckets ++ listed others) := by
  induction others generalizing buckets with
  | nil =>
    have hnone : listed ([] : List (Text × List α)) = [] := rfl
    rw [hnone, List.append_nil]
    exact .refl (listed buckets)
  | cons bucket others ih =>
    have hextended := (perm_listed_extended bucket.1 bucket.2 buckets).append_right (listed others)
    rw [appended_cons, listed_cons, ← List.append_assoc]
    exact (ih _).trans hextended

/-- Names come in the order of their first uses. -/
theorem keys_appended_nil : Assoc.keys (appended [] others) = firstOccurrences (Assoc.keys others) :=
  keys_appended [] others

/-- Names that have come before change nothing when they come again. -/
theorem foldl_keysWith_firstOccurrences (names seen : List Text) :
    (firstOccurrences names).foldl (fun seen name => Assoc.keysWith name seen) seen =
      names.foldl (fun seen name => Assoc.keysWith name seen) seen := by
  induction names using List.reverseRecOn with
  | nil => rfl
  | append_singleton names name ih =>
    rw [firstOccurrences_concat, List.foldl_concat]
    split
    · next hname =>
      have hmem : name ∈ names.foldl (fun seen name => Assoc.keysWith name seen) seen :=
        (mem_foldl_firstOccurrences names seen name).2 (.inr hname)
      rw [ih, Assoc.keysWith, if_pos hmem]
    · rw [List.foldl_concat, ih]

variable {buckets}

theorem nodup_keys_appended (h : (Assoc.keys buckets).Nodup) : (Assoc.keys (appended buckets others)).Nodup := by
  rw [keys_appended]
  exact nodup_foldl_firstOccurrences _ _ h

/-- What is appended may be put together first. -/
theorem appended_appended_nil (h : (Assoc.keys buckets).Nodup) :
    appended buckets (appended [] others) = appended buckets others := by
  apply ext_under (nodup_keys_appended _ h)
  · rw [keys_appended buckets (appended [] others), keys_appended_nil, foldl_keysWith_firstOccurrences, keys_appended]
  · intro name
    have hnodup : (Assoc.keys (appended [] others)).Nodup := nodup_keys_appended others List.nodup_nil
    rw [under_appended, ← under_eq_flatMap hnodup, under_appended, under_appended]
    rfl

end Appended

/-! ## Buckets of references -/

section References

variable (categories : α → List Category) (references more : List α)

/-- A bucket for each category that references declare, one after the other. -/
def listings : List (Text × List α) :=
  references.flatMap fun reference => (categories reference).map fun category => (category.name, [reference])

/-- Listing references under the names of their categories is appending one listing after the other. -/
theorem bucketsOf_eq_appended : bucketsOf categories references = appended [] (listings categories references) := by
  rw [appended, listings, List.foldl_flatMap]
  simp only [List.foldl_map]
  rfl

theorem keys_bucketsOf :
    Assoc.keys (bucketsOf categories references) =
      firstOccurrences (references.flatMap fun reference => (categories reference).map Category.name) := by
  rw [bucketsOf_eq_appended, keys_appended_nil, Assoc.keys, listings, List.map_flatMap]
  simp only [List.map_map]
  rfl

theorem flatMap_ite_singleton {β : Type} (p : β → Bool) (xs : List β) (a : α) :
    (xs.flatMap fun x => if p x then [a] else []) = List.replicate (xs.countP p) a := by
  induction xs with
  | nil => rfl
  | cons x xs ih =>
    rw [List.flatMap_cons, ih]
    cases hx : p x with
    | false => rw [List.countP_cons_of_neg (ne_true_of_eq_false hx), if_neg Bool.false_ne_true, List.nil_append]
    | true => rw [List.countP_cons_of_pos hx, if_pos rfl, List.singleton_append, List.replicate_succ]

/-- A reference is listed under a name as many times as it has categories of that name. -/
theorem under_bucketsOf (name : Text) :
    under name (bucketsOf categories references) =
      references.flatMap fun reference =>
        List.replicate ((categories reference).countP fun category => category.name = name) reference := by
  rw [bucketsOf_eq_appended, under_appended, listings, List.flatMap_assoc]
  simp only [List.flatMap_map, ← flatMap_ite_singleton, decide_eq_true_eq]
  rfl

theorem mem_bucket_iff {bucket : Text × List α} (h : bucket ∈ bucketsOf categories references) {reference : α} :
    reference ∈ bucket.2 ↔ reference ∈ references ∧ ∃ category ∈ categories reference, category.name = bucket.1 := by
  have hunder := under_of_mem (nodup_bucketsOf categories references) h
  rw [← hunder, under_bucketsOf, List.mem_flatMap]
  constructor
  · rintro ⟨other, hother, hmem⟩
    obtain ⟨hcount, rfl⟩ := List.mem_replicate.1 hmem
    obtain ⟨category, hcategory, hname⟩ := List.countP_pos_iff.1 (Nat.pos_of_ne_zero hcount)
    exact ⟨hother, category, hcategory, of_decide_eq_true hname⟩
  · rintro ⟨hreference, category, hcategory, hname⟩
    have hcount : 0 < (categories reference).countP fun category => category.name = bucket.1 :=
      List.countP_pos_iff.2 ⟨category, hcategory, decide_eq_true hname⟩
    exact ⟨reference, hreference, List.mem_replicate.2 ⟨Nat.ne_of_gt hcount, rfl⟩⟩

/-- No bucket is made for nothing. -/
theorem bucket_ne_nil {bucket : Text × List α} (h : bucket ∈ bucketsOf categories references) : bucket.2 ≠ [] := by
  have hname : bucket.1 ∈ Assoc.keys (bucketsOf categories references) := List.mem_map_of_mem h
  rw [keys_bucketsOf, mem_firstOccurrences, List.mem_flatMap] at hname
  obtain ⟨reference, hreference, hname⟩ := hname
  have hmem : reference ∈ bucket.2 := (mem_bucket_iff categories references h).2 ⟨hreference, List.mem_map.1 hname⟩
  exact List.ne_nil_of_mem hmem

/-- A reference is listed as many times as it has categories. -/
theorem perm_listed_bucketsOf :
    (listed (bucketsOf categories references)).Perm
      (references.flatMap fun reference => List.replicate (categories reference).length reference) := by
  have hlistings : listed (listings categories references) =
      references.flatMap fun reference => List.replicate (categories reference).length reference := by
    rw [listed, listings, List.flatMap_assoc]
    simp only [List.flatMap_map, ← List.map_const']
    simp only [List.map_eq_flatMap]
  rw [bucketsOf_eq_appended, ← hlistings]
  exact perm_listed_appended [] _

theorem bucketsOf_append :
    bucketsOf categories (references ++ more) =
      appended (bucketsOf categories references) (bucketsOf categories more) := by
  have hlistings : listings categories (references ++ more) =
      listings categories references ++ listings categories more := List.flatMap_append
  calc bucketsOf categories (references ++ more)
      = appended [] (listings categories references ++ listings categories more) := by
        rw [bucketsOf_eq_appended, hlistings]
    _ = appended (bucketsOf categories references) (listings categories more) := by
        rw [bucketsOf_eq_appended, appended, List.foldl_append]
        rfl
    _ = appended (bucketsOf categories references) (bucketsOf categories more) := by
        rw [bucketsOf_eq_appended categories more, appended_appended_nil _ (nodup_bucketsOf categories references)]

end References

end ModuleCatalog.Manifest
