import ModuleCatalog.Discovery.SourceFiles
import ModuleCatalog.Proofs.Discovery.Extraction
import ModuleCatalog.Proofs.FileSystem.Distinct
import ModuleCatalog.Proofs.Text.Order

/-!
# Source files of a tree

The files of a directory are those of its entries in the order of their names. Every file is found at the path of
an entry, which is that of the root with the names that lead to the entry.
-/

namespace ModuleCatalog

/-- The path of what stands behind names below a path. -/
def Path.below (path : Path) (names : List Text) : Path := ⟨path.root, path.parts ++ names⟩

theorem Path.below_nil (path : Path) : path.below [] = path := by
  rw [Path.below, List.append_nil]

theorem Path.child_below (path : Path) (names : List Text) (name : Text) :
    (path.below names).child name = path.below (names ++ [name]) := by
  rw [Path.below, Path.child, Path.below, List.append_assoc]

theorem Path.below_child (path : Path) (name : Text) (names : List Text) :
    (path.child name).below names = path.below (name :: names) := by
  rw [Path.below, Path.child, Path.below, List.append_assoc, List.singleton_append]

namespace Discovery

open FileSystem

/-! ## Files by name -/

/-- The source files that a path contributes where something stands, or nothing. -/
def filesOf (fs : FileSystem) (c : Config) (path : Path) : Option Node → Logged (List Path)
  | none => pure []
  | some node => filesAt fs c path node

section Names

variable {fs : FileSystem} {c : Config} {path : Path} {entries : List (Text × Node)} {paths : List Path}

theorem filesIn_eq_map (fs : FileSystem) (c : Config) (path : Path) (entries : List (Text × Node)) :
    filesIn fs c path entries = entries.map fun entry => (entry.1, filesAt fs c (path.child entry.1) entry.2) := by
  induction entries with
  | nil => rfl
  | cons entry entries ih => rw [filesIn, ih, List.map_cons]

theorem filesIn_eq (hnodup : (Assoc.keys entries).Nodup) : filesIn fs c path entries =
    (Assoc.keys entries).map fun name => (name, filesOf fs c (path.child name) (Assoc.get? name entries)) := by
  rw [filesIn_eq_map, Assoc.keys, List.map_map]
  apply List.map_congr_left
  intro entry hentry
  rw [Function.comp_apply, (Assoc.get?_eq_some_iff hnodup).2 hentry, filesOf]

theorem outcome_gather (parts : List (Text × Logged (List Path))) : (gather parts).outcome =
    ((Text.sortOn Prod.fst parts).mapM fun part : Text × Logged (List Path) => part.2.outcome).map List.flatten := by
  rw [gather, Logged.outcome_bind, Logged.outcome_mapM]
  rfl

theorem gather_map (names : List Text) (f : Text → Logged (List Path)) :
    (gather (names.map fun name => (name, f name))).outcome =
      ((Text.sorted names).mapM fun name => (f name).outcome).map List.flatten := by
  have hsort : Text.sortOn Prod.fst (names.map fun name => (name, f name)) =
      (Text.sorted names).map fun name => (name, f name) :=
    Text.sortOn_map Prod.fst _ names
  rw [outcome_gather, hsort, List.mapM_map]
  rfl

/-- The files of a directory are those of its entries, name by name. -/
theorem gather_filesIn_eq_ok_iff (hnodup : (Assoc.keys entries).Nodup) :
    (gather (filesIn fs c path entries)).outcome = .ok paths ↔ ∃ f : Text → List Path,
      (∀ name, (filesOf fs c (path.child name) (Assoc.get? name entries)).outcome = .ok (f name)) ∧
        (Text.sorted (Assoc.keys entries)).flatMap f = paths := by
  have hmem : ∀ {name}, name ∈ Text.sorted (Assoc.keys entries) ↔ name ∈ Assoc.keys entries :=
    (Text.perm_sorted _).mem_iff
  rw [filesIn_eq hnodup, gather_map, map_eq_ok_iff]
  simp only [mapM_eq_ok_iff_map]
  constructor
  · rintro ⟨_, ⟨f, hf, rfl⟩, rfl⟩
    refine ⟨fun name => if name ∈ Assoc.keys entries then f name else [], fun name => ?_, ?_⟩
    · dsimp only
      by_cases hname : name ∈ Assoc.keys entries
      · rw [if_pos hname]
        exact hf name (hmem.2 hname)
      · rw [if_neg hname, Assoc.get?_eq_none_iff.2 hname]
        rfl
    · rw [← List.flatMap_def]
      exact List.flatMap_congr fun name hname => if_pos (hmem.1 hname)
  · rintro ⟨f, hf, rfl⟩
    exact ⟨_, ⟨f, fun name _ => hf name, rfl⟩, (List.flatMap_def ..).symm⟩

theorem filesAt_directory_eq_ok_iff : (filesAt fs c path (.directory entries)).outcome = .ok paths ↔
    (path.name ∈ c.excluded ∧ [] = paths) ∨
      (path.name ∉ c.excluded ∧ isShort path ∧ (gather (filesIn fs c path entries)).outcome = .ok paths) := by
  rw [filesAt]
  by_cases hexcluded : path.name ∈ c.excluded
  · rw [if_pos hexcluded, Logged.bind_eq_ok_iff]
    constructor
    · rintro ⟨_, -, h⟩
      exact .inl ⟨hexcluded, Except.ok.inj h⟩
    · rintro (⟨-, rfl⟩ | ⟨hnot, -⟩)
      · exact ⟨(), rfl, rfl⟩
      · exact absurd hexcluded hnot
  · by_cases hshort : isShort path
    · simp [hexcluded, hshort]
    · simp [hexcluded, hshort, refuse]

/-! ## Paths of source files -/

theorem eq_of_mem_candidate {p : Path} (h : p ∈ candidate c path) : p = path := by
  unfold candidate at h
  split at h
  · exact List.mem_singleton.1 h
  · cases h

theorem filesAt_link_eq_ok_iff {target : Text} : (filesAt fs c path (.link target)).outcome = .ok paths ↔
    ∃ isFile, (leadsToFile fs path).outcome = .ok isFile ∧ (if isFile then candidate c path else []) = paths := by
  rw [filesAt, Logged.bind_eq_ok_iff]
  constructor
  · rintro ⟨isFile, hfile, h⟩
    refine ⟨isFile, hfile, ?_⟩
    cases isFile <;> exact Except.ok.inj h
  · rintro ⟨isFile, hfile, rfl⟩
    refine ⟨isFile, hfile, ?_⟩
    cases isFile <;> rfl

/-- What is no directory contributes at most its own path. -/
theorem eq_of_mem_filesAt {node : Node} (hnode : node.isDirectory = false)
    (h : (filesAt fs c path node).outcome = .ok paths) : ∀ p ∈ paths, p = path := by
  intro p hp
  cases node with
  | directory entries => cases hnode
  | file content mode =>
    rw [filesAt] at h
    exact eq_of_mem_candidate (Except.ok.inj h ▸ hp)
  | special reading =>
    rw [filesAt] at h
    have hpaths := Except.ok.inj h
    split at hpaths
    · exact eq_of_mem_candidate (hpaths ▸ hp)
    · exact absurd (hpaths ▸ hp) List.not_mem_nil
  | link target =>
    obtain ⟨isFile, -, hpaths⟩ := filesAt_link_eq_ok_iff.1 h
    split at hpaths
    · exact eq_of_mem_candidate (hpaths ▸ hp)
    · exact absurd (hpaths ▸ hp) List.not_mem_nil

/-- Whether paths lead, name by name, to what is no directory below a node. -/
def AreBelow (path : Path) (node : Node) (paths : List Path) : Prop :=
  ∀ p ∈ paths, ∃ names leaf, p = path.below names ∧ node.at? names = some leaf ∧ leaf.isDirectory = false

theorem areBelow_gather (hnodup : (Assoc.keys entries).Nodup)
    (hentries : ∀ name node paths, Assoc.get? name entries = some node →
      (filesAt fs c (path.child name) node).outcome = .ok paths → AreBelow (path.child name) node paths)
    (h : (gather (filesIn fs c path entries)).outcome = .ok paths) :
    AreBelow path (.directory entries) paths := by
  obtain ⟨f, hf, rfl⟩ := (gather_filesIn_eq_ok_iff hnodup).1 h
  intro p hp
  obtain ⟨name, -, hp⟩ := List.mem_flatMap.1 hp
  have hname := hf name
  cases hget : Assoc.get? name entries with
  | none =>
    rw [hget] at hname
    exact absurd (Except.ok.inj hname ▸ hp) List.not_mem_nil
  | some node =>
    rw [hget] at hname
    obtain ⟨names, leaf, rfl, hat, hleaf⟩ := hentries name node (f name) hget hname p hp
    refine ⟨name :: names, leaf, path.below_child name names, ?_, hleaf⟩
    · rw [Node.at?, Node.entries, hget, Option.bind_some, hat]

/-- Source files are found at the paths of entries. -/
theorem areBelow_filesAt {node : Node} (hdistinct : node.HasDistinctNames)
    (h : (filesAt fs c path node).outcome = .ok paths) : AreBelow path node paths := by
  induction node using Node.induction generalizing path paths with
  | leaf node hnode =>
    intro p hp
    obtain rfl := eq_of_mem_filesAt hnode h p hp
    exact ⟨[], node, p.below_nil.symm, rfl, hnode⟩
  | directory entries ih =>
    have hnodup := hdistinct [] entries rfl
    rcases filesAt_directory_eq_ok_iff.1 h with ⟨-, rfl⟩ | ⟨-, -, hgather⟩
    · exact List.forall_mem_nil _
    · apply areBelow_gather hnodup _ hgather
      intro name node paths hget hpaths
      exact ih (name, node) ((Assoc.get?_eq_some_iff hnodup).1 hget) (hdistinct.child hget) hpaths

/-! ## Source files of a root -/

theorem list_eq_ok_iff : fs.list path = .ok entries ↔
    ∃ location, fs.locate .target path.toText = .ok (.entry location (.directory entries)) := by
  unfold list
  cases hlocate : fs.locate .target path.toText with
  | error cause => simp [hlocate, bind, Except.bind]
  | ok p =>
    cases p with
    | free directory name => simp [hlocate, bind, Except.bind]
    | entry location node => cases node <;> simp [hlocate, bind, Except.bind]

theorem sourceFiles_eq_ok_iff : (sourceFiles fs c path).outcome = .ok paths ↔
    ∃ entries, fs.list path = .ok entries ∧ (gather (filesIn fs c path entries)).outcome = .ok paths := by
  unfold sourceFiles
  cases hlist : fs.list path with
  | ok entries => simp
  | error cause => cases hfault : cause.isFault <;> simp [refuse, hfault]

/-- Source files are found at the paths of entries. -/
theorem exists_of_mem_sourceFiles (hdistinct : fs.top.HasDistinctNames) {here : List Text}
    (hroot : fs.LeadsTo .target path.toText here) (h : (sourceFiles fs c path).outcome = .ok paths) :
    ∀ p ∈ paths, ∃ names leaf, p = path.below names ∧ fs.top.at? (here ++ names) = some leaf ∧
      leaf.isDirectory = false := by
  obtain ⟨entries, hlist, hgather⟩ := sourceFiles_eq_ok_iff.1 h
  obtain ⟨location, hlocate⟩ := list_eq_ok_iff.1 hlist
  have hlookup := (locate_eq_ok_iff.1 hlocate).2
  obtain rfl := hroot.location_eq ⟨_, hlookup, rfl⟩
  have hat := lookup_entry hlookup
  have hbelow := hdistinct.below hat
  have hpaths : AreBelow path (.directory entries) paths := by
    apply areBelow_gather (hdistinct _ _ hat) _ hgather
    intro name node paths hget hpaths
    exact areBelow_filesAt (hbelow.child hget) hpaths
  intro p hp
  obtain ⟨names, leaf, hpath, hleaf, hnode⟩ := hpaths p hp
  refine ⟨names, leaf, hpath, ?_, hnode⟩
  rw [Node.at?_append]
  exact (congrArg (Option.bind · (Node.at? names)) hat).trans hleaf

end Names

end Discovery

end ModuleCatalog
