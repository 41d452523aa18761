import ModuleCatalog.Discovery.Walk
import ModuleCatalog.Proofs.Fallible

/-!
# The outcome of a walk

The order in which the workers of a pool complete their tasks decides which records are written when, and
nothing else: the outcome is that of reading one file after the other.
-/

namespace ModuleCatalog

/-! ## Runs one after the other -/

namespace Logged

variable {α β γ : Type}

theorem andThen_of_ok {x : Logged α} {a : α} (h : x.outcome = .ok a) (f : α → Logged β) :
    andThen x f = ⟨x.records ++ (f a).records, (f a).outcome⟩ := by
  rw [andThen, h]

theorem andThen_of_error {x : Logged α} {failure : Failure} (h : x.outcome = .error failure)
    (f : α → Logged β) : andThen x f = ⟨x.records, .error failure⟩ := by
  rw [andThen, h]

theorem andThen_pure (x : Logged α) (f : α → β) :
    (andThen x fun a => (pure (f a) : Logged β)) = ⟨x.records, x.outcome.map f⟩ := by
  cases h : x.outcome with
  | error failure => rw [andThen_of_error h]; rfl
  | ok a => rw [andThen_of_ok h, pure_eq, List.append_nil]; rfl

instance : LawfulMonad Logged := LawfulMonad.mk' Logged
  (by
    intro α x
    have hid : x.outcome.map id = x.outcome := by cases x.outcome <;> rfl
    calc id <$> x = andThen x fun a => (pure (id a) : Logged α) := rfl
      _ = x := by rw [andThen_pure, hid])
  (by
    intro α β a f
    rw [bind_eq, andThen_of_ok (outcome_pure a), pure_eq, List.nil_append])
  (by
    intro α β γ x f g
    simp only [bind_eq]
    cases hx : x.outcome with
    | error failure => rw [andThen_of_error hx, andThen_of_error hx, andThen_of_error rfl]
    | ok a =>
      rw [andThen_of_ok hx, andThen_of_ok hx]
      cases hf : (f a).outcome with
      | error failure => rw [andThen_of_error rfl, andThen_of_error hf]
      | ok b => rw [andThen_of_ok rfl, andThen_of_ok hf, List.append_assoc])

theorem bind_eq_ok_iff {x : Logged α} {f : α → Logged β} {b : β} :
    (x >>= f).outcome = .ok b ↔ ∃ a, x.outcome = .ok a ∧ (f a).outcome = .ok b := by
  rw [outcome_bind]
  exact ModuleCatalog.bind_eq_ok_iff

theorem outcome_mapM (f : α → Logged β) (xs : List α) :
    (xs.mapM f).outcome = xs.mapM fun x => (f x).outcome := by
  induction xs with
  | nil => rfl
  | cons x xs ih =>
    rw [List.mapM_cons, List.mapM_cons, outcome_bind]
    apply congrArg ((f x).outcome.bind ·)
    funext y
    rw [outcome_bind, ih]
    rfl

end Logged

/-! ## Pools -/

namespace Discovery

namespace Pool

variable {α : Type}

theorem getElem?_of_get?_complete {schedule : List Nat} {tasks : List (Logged α)} {position : Nat}
    {task : Logged α} (h : Assoc.get? position (complete schedule tasks) = some task) :
    tasks[position]? = some task := by
  induction schedule with
  | nil => cases h
  | cons first schedule ih =>
    cases hfirst : tasks[first]? with
    | none =>
      have hskip : complete (first :: schedule) tasks = complete schedule tasks :=
        List.filterMap_cons_none (by rw [hfirst]; rfl)
      exact ih (hskip ▸ h)
    | some other =>
      have hentry : complete (first :: schedule) tasks = (first, other) :: complete schedule tasks :=
        List.filterMap_cons_some (by rw [hfirst]; rfl)
      rw [hentry, Assoc.get?] at h
      split at h
      · next heq => rw [← heq, hfirst, h]
      · exact ih h

theorem outcomeAt_complete {schedule : List Nat} {tasks : List (Logged α)} {position : Nat}
    {task : Logged α} (h : tasks[position]? = some task) :
    outcomeAt (complete schedule tasks) position task = task.outcome := by
  unfold outcomeAt
  cases hget : Assoc.get? position (complete schedule tasks) with
  | none => rfl
  | some found =>
    obtain rfl := Option.some.inj (h.symm.trans (getElem?_of_get?_complete hget))
    rfl

theorem collect_complete (schedule : List Nat) (tasks before rest : List (Logged α))
    (h : tasks = before ++ rest) :
    collect (complete schedule tasks) before.length rest = rest.mapM Logged.outcome := by
  induction rest generalizing before with
  | nil => rfl
  | cons task rest ih =>
    have hget : tasks[before.length]? = some task := by rw [h]; simp
    have hrest := ih (before ++ [task]) (by rw [h, List.append_assoc, List.singleton_append])
    rw [List.length_append, List.length_singleton] at hrest
    rw [collect, outcomeAt_complete hget, hrest, List.mapM_cons]
    rfl

/-- A pool has the outcome of its tasks one after the other, whatever the order of completion. -/
theorem outcome_run (schedule : List Nat) (tasks : List (Logged α)) :
    (run schedule tasks).outcome = tasks.mapM Logged.outcome :=
  collect_complete schedule tasks [] tasks rfl

end Pool

/-! ## Source files -/

theorem outcome_extract (fs : FileSystem) (path : Path) :
    (extract fs path).outcome = (Source.moduleAt? fs path).mapError (failureAt path) := by
  unfold extract
  split
  · next h => rw [h]; rfl
  · next h => rw [h]; rfl
  · next h => rw [h]; rfl

theorem outcome_extractAll (fs : FileSystem) (c : Config) (schedule : Nat → List Nat)
    (files : List Path) :
    (extractAll fs c schedule files).outcome = files.mapM fun path => (extract fs path).outcome := by
  unfold extractAll
  split
  · rw [Pool.outcome_run, List.mapM_map]
    rfl
  · rw [Logged.outcome_mapM]

theorem extractAll_eq_ok_iff {fs : FileSystem} {c : Config} {schedule : Nat → List Nat}
    {files : List Path} {found : List (Option Module)} :
    (extractAll fs c schedule files).outcome = .ok found ↔
      files.mapM (Source.moduleAt? fs) = .ok found := by
  rw [outcome_extractAll, mapM_eq_ok_iff, mapM_eq_ok_iff]
  simp only [outcome_extract, mapError_eq_ok_iff]

/-- A walk of a directory gives the modules of its source files in their order. -/
theorem walkWith_eq_ok_iff {schedule : Nat → List Nat} {fs : FileSystem} {c : Config} {root : Path}
    {modules : List Module} : (walkWith schedule fs c root).outcome = .ok modules ↔
      fs.isDirectory root = .ok true ∧ ∃ files found, (sourceFiles fs c root).outcome = .ok files ∧
        files.mapM (Source.moduleAt? fs) = .ok found ∧ found.filterMap id = modules := by
  unfold walkWith
  rw [Logged.bind_eq_ok_iff]
  simp only [Logged.outcome_of, mapError_eq_ok_iff]
  constructor
  · rintro ⟨isDirectory, hroot, h⟩
    cases isDirectory with
    | false => cases h
    | true =>
      obtain ⟨files, hfiles, h⟩ := Logged.bind_eq_ok_iff.1 h
      obtain ⟨found, hfound, h⟩ := Logged.bind_eq_ok_iff.1 h
      obtain ⟨_, -, h⟩ := Logged.bind_eq_ok_iff.1 h
      exact ⟨hroot, files, found, hfiles, extractAll_eq_ok_iff.1 hfound, Except.ok.inj h⟩
  · rintro ⟨hroot, files, found, hfiles, hfound, rfl⟩
    refine ⟨true, hroot, ?_⟩
    refine Logged.bind_eq_ok_iff.2 ⟨files, hfiles, ?_⟩
    refine Logged.bind_eq_ok_iff.2 ⟨found, extractAll_eq_ok_iff.2 hfound, ?_⟩
    exact Logged.bind_eq_ok_iff.2 ⟨(), rfl, rfl⟩

end Discovery

end ModuleCatalog
