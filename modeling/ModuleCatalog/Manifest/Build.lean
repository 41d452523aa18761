import ModuleCatalog.Manifest.Basic

/-!
# Building a manifest

Every module is listed under the name of each of its categories, in the order in which the modules
come; a name that a module declares twice lists it twice. A name gets its bucket when it is first used.
-/

namespace ModuleCatalog.Manifest

/-- List a reference under a name. -/
def enter {α : Type} (buckets : List (Text × List α)) (name : Text) (reference : α) :
    List (Text × List α) :=
  Assoc.update name (· ++ [reference]) [] buckets

/-- List a reference under the names of categories. -/
def enterAll {α : Type} (buckets : List (Text × List α)) (reference : α)
    (categories : List Category) : List (Text × List α) :=
  categories.foldl (fun buckets category => enter buckets category.name reference) buckets

theorem nodup_enterAll {α : Type} (reference : α) (categories : List Category)
    {buckets : List (Text × List α)} (h : (Assoc.keys buckets).Nodup) :
    (Assoc.keys (enterAll buckets reference categories)).Nodup := by
  induction categories generalizing buckets with
  | nil => exact h
  | cons category categories ih => exact ih (Assoc.nodup_keys_update _ _ _ h)

/-- The buckets of a sequence of references, of which `categories` says what they declare. -/
def bucketsOf {α : Type} (categories : α → List Category) (references : List α) :
    List (Text × List α) :=
  references.foldl (fun buckets reference => enterAll buckets reference (categories reference)) []

theorem nodup_bucketsOf {α : Type} (categories : α → List Category) (references : List α) :
    (Assoc.keys (bucketsOf categories references)).Nodup := by
  suffices ∀ buckets : List (Text × List α), (Assoc.keys buckets).Nodup →
      (Assoc.keys (references.foldl
        (fun buckets reference => enterAll buckets reference (categories reference)) buckets)).Nodup from
    this [] List.nodup_nil
  induction references with
  | nil => exact fun _ h => h
  | cons reference references ih => exact fun buckets h => ih _ (nodup_enterAll _ _ h)

/-- The manifest of modules taken from a table in some order; one that comes again is the same one. -/
def ofReferences (modules : List Module) (references : List (Fin modules.length)) : Manifest where
  modules
  buckets := bucketsOf (fun reference => modules[reference].categories) references
  nodup_names := nodup_bucketsOf _ _

/-- The manifest of modules, all of them different. -/
def build (modules : List Module) : Manifest := ofReferences modules (List.finRange modules.length)

end ModuleCatalog.Manifest
