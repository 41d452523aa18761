import Mathlib
import ModuleCatalog.Proofs.Discovery.Extraction
import ModuleCatalog.Proofs.FileSystem.Tree

/-!
# Walks with several workers

How many workers a walk has, and in which order they complete their tasks, makes no difference to its outcome. If
files cannot be read, the failure is that of the first one in the order of the walk, even if the pool met another
one earlier.
-/

namespace ModuleCatalog.Discovery

variable {schedule schedule' : Nat → List Nat} {fs : FileSystem} {c c' : Config} {root : Path}

/-! ## What the source files depend on -/

theorem candidate_congr (hextension : c'.extension = c.extension) (path : Path) :
    candidate c' path = candidate c path := by
  rw [candidate, candidate, Config.suffix, Config.suffix, hextension]

theorem filesIn_congr {path : Path} {entries : List (Text × Node)}
    (h : ∀ entry ∈ entries, ∀ path, filesAt fs c' path entry.2 = filesAt fs c path entry.2) :
    filesIn fs c' path entries = filesIn fs c path entries := by
  induction entries with
  | nil => rfl
  | cons entry entries ih =>
    obtain ⟨hfirst, hrest⟩ := List.forall_mem_cons.1 h
    rw [filesIn, filesIn, hfirst, ih hrest]

/-- The files that a node contributes depend on the names that count and those that are left out. -/
theorem filesAt_config_congr (hextension : c'.extension = c.extension) (hexcluded : c'.excluded = c.excluded)
    (node : Node) (path : Path) : filesAt fs c' path node = filesAt fs c path node := by
  induction node using Node.induction generalizing path with
  | leaf node hnode =>
    cases node with
    | directory entries => cases hnode
    | _ => simp only [filesAt, candidate_congr hextension]
  | directory entries ih =>
    rw [filesAt, filesAt, hexcluded, filesIn_congr fun entry hentry path => ih entry hentry path]

theorem sourceFiles_config_congr (hextension : c'.extension = c.extension)
    (hexcluded : c'.excluded = c.excluded) : sourceFiles fs c' root = sourceFiles fs c root := by
  have hentries : ∀ entries, filesIn fs c' root entries = filesIn fs c root entries :=
    fun entries => filesIn_congr fun entry _ path => filesAt_config_congr hextension hexcluded entry.2 path
  simp only [sourceFiles, hentries]

/-! ## Outcomes -/

/-- A walk gives the modules of its source files in their order, or fails as the first file does that fails. -/
theorem outcome_walkWith (schedule : Nat → List Nat) (fs : FileSystem) (c : Config) (root : Path) :
    (walkWith schedule fs c root).outcome =
      ((fs.isDirectory root).mapError Failure.files).bind fun isDirectory =>
        if isDirectory then
          (sourceFiles fs c root).outcome.bind fun files =>
            (files.mapM fun path => (extract fs path).outcome).map (List.filterMap id)
        else .error (.discovery root .notDirectory) := by
  unfold walkWith
  rw [Logged.outcome_bind, Logged.outcome_of]
  apply congrArg (Except.bind _)
  funext isDirectory
  cases isDirectory with
  | false => rfl
  | true =>
    simp only [Bool.not_true, Bool.false_eq_true, if_false, if_true, Logged.outcome_bind, outcome_extractAll]
    apply congrArg (Except.bind _)
    funext files
    cases files.mapM fun path => (extract fs path).outcome <;> rfl

/-- The problem of a file that cannot be read. -/
def problemOf : FileSystem.TextError → DiscoveryProblem
  | .refused cause => .refused cause
  | .undecodable cause => .undecodable cause.reason

theorem failureAt_of_isFault {path : Path} {e : FileSystem.TextError}
    (h : ∀ cause, e = .refused cause → cause.isFault) : failureAt path e = .discovery path (problemOf e) := by
  cases e with
  | refused cause => exact if_pos (h cause rfl)
  | undecodable cause => rfl

/-- The outcome of a walk is the same for any number of workers and any order in which they complete their tasks:
the modules in the order of their files, or the failure of the first file that cannot be read. -/
theorem outcome_walkWith_workers (schedule schedule' : Nat → List Nat) (fs : FileSystem) (c : Config)
    (root : Path) (workers : Int) :
    (walkWith schedule fs { c with workers } root).outcome =
        (walkWith schedule' fs { c with workers := 1 } root).outcome ∧
      ∀ files, fs.isDirectory root = .ok true → (sourceFiles fs c root).outcome = .ok files →
        (∀ path ∈ files, ∀ cause, Source.moduleAt? fs path = .error (.refused cause) → cause.isFault) →
          (∃ found, files.mapM (Source.moduleAt? fs) = .ok found ∧
            (walkWith schedule fs { c with workers } root).outcome = .ok (found.filterMap id)) ∨
          ∃ before path after e, files = before ++ path :: after ∧
            (∀ earlier ∈ before, ∃ found, Source.moduleAt? fs earlier = .ok found) ∧
            Source.moduleAt? fs path = .error e ∧
            (walkWith schedule fs { c with workers } root).outcome = .error (.discovery path (problemOf e)) := by
  have hfiles : ∀ workers, sourceFiles fs { c with workers } root = sourceFiles fs c root :=
    fun workers => sourceFiles_config_congr rfl rfl
  refine ⟨by rw [outcome_walkWith, outcome_walkWith, hfiles workers, hfiles 1], ?_⟩
  intro files hroot hfound hfault
  have houtcome : (walkWith schedule fs { c with workers } root).outcome =
      (files.mapM fun path => (Source.moduleAt? fs path).mapError (failureAt path)).map
        (List.filterMap id) := by
    simp only [outcome_walkWith, hfiles, hroot, hfound, Except.mapError, Except.bind, if_true, outcome_extract]
  rw [houtcome]
  cases hmapM : files.mapM fun path => (Source.moduleAt? fs path).mapError (failureAt path) with
  | ok found =>
    refine .inl ⟨found, ?_, rfl⟩
    simpa only [mapM_eq_ok_iff, mapError_eq_ok_iff] using hmapM
  | error failure =>
    obtain ⟨before, path, after, rfl, hbefore, hpath⟩ := mapM_eq_error_iff.1 hmapM
    obtain ⟨e, he, rfl⟩ := mapError_eq_error_iff.1 hpath
    have hfailure : failureAt path e = .discovery path (problemOf e) :=
      failureAt_of_isFault fun cause hcause => hfault path (by simp) cause (hcause ▸ he)
    refine .inr ⟨before, path, after, e, rfl, ?_, he, ?_⟩
    · simpa only [mapError_eq_ok_iff] using hbefore
    · exact congrArg Except.error hfailure

/-- A tree with a source file that cannot be read and one behind it that is not valid UTF-8. -/
def unreadableTree : FileSystem :=
  ⟨.directory [("b.php", .file [0xFF] 0o644), ("a.php", .special (some .inputOutput))], [], ⟨none, []⟩⟩

/-- The pool meets the failure of the second file first. -/
theorem outcome_walkWith_workers_unreadable :
    (sourceFiles unreadableTree {} ".").outcome = .ok ["a.php", "b.php"] ∧
      (∃ cause, Source.moduleAt? unreadableTree "b.php" = .error (.undecodable cause)) ∧
      (walkWith (fun count => (List.range count).reverse) unreadableTree { workers := 2 } ".").outcome =
        .error (.discovery "a.php" (.refused (.fault .inputOutput []))) := by
  have hfiles : (sourceFiles unreadableTree {} ".").outcome = .ok ["a.php", "b.php"] := by cbv
  have hfirst : Source.moduleAt? unreadableTree "a.php" = .error (.refused (.fault .inputOutput [])) := by cbv
  have hsecond : ∃ cause, Source.moduleAt? unreadableTree "b.php" = .error (.undecodable cause) := ⟨_, by cbv⟩
  have hfault : ∀ path ∈ [("a.php" : Path), "b.php"], ∀ cause,
      Source.moduleAt? unreadableTree path = .error (.refused cause) → cause.isFault := by
    obtain ⟨_, hsecond⟩ := hsecond
    simp [hfirst, hsecond, FileSystem.Error.isFault]
  obtain ⟨-, houtcome⟩ := outcome_walkWith_workers (fun count => (List.range count).reverse) List.range
    unreadableTree {} "." 2
  refine ⟨hfiles, hsecond, ?_⟩
  rcases houtcome _ (by cbv) hfiles hfault with
    ⟨found, hfound, -⟩ | ⟨before, path, after, e, hsplit, hbefore, hpath, h⟩
  · obtain ⟨_, hok, -⟩ := (mapM_cons_eq_ok_iff ..).1 hfound
    cases hfirst.symm.trans hok
  · cases before with
    | nil =>
      obtain ⟨rfl, -⟩ := List.cons.inj hsplit
      obtain rfl := Except.error.inj (hfirst.symm.trans hpath)
      exact h
    | cons earlier before =>
      obtain ⟨rfl, -⟩ := List.cons.inj hsplit
      obtain ⟨_, hok⟩ := hbefore _ List.mem_cons_self
      cases hfirst.symm.trans hok

end ModuleCatalog.Discovery
