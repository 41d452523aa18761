import Mathlib
import ModuleCatalog.Proofs.Discovery.Again

/-!
# What a listing of source files holds

A path is listed if and only if it leads, name by name, through directories none of which is excluded, to a file
or to a link to one, with the right end of its name. The paths come in the order of their parts, so none comes
twice, and the order in which the directories keep their entries makes no difference. The name of the root does
not count.
-/

namespace ModuleCatalog

/-! ## Entries in another order -/

theorem Assoc.get?_perm {α : Type} {entries entries' : List (Text × α)} (hperm : entries'.Perm entries)
    (hnodup : (Assoc.keys entries).Nodup) (name : Text) : Assoc.get? name entries' = Assoc.get? name entries := by
  have hnodup' : (Assoc.keys entries').Nodup := (hperm.map Prod.fst).nodup_iff.2 hnodup
  ext a
  rw [get?_eq_some_iff hnodup', get?_eq_some_iff hnodup, hperm.mem_iff]

namespace Node

/-- Whether a tree is another one with the entries of some directory in another order. -/
def ReordersOne (a b : Node) : Prop :=
  ∃ f location, (∀ entries, (f entries).Perm entries) ∧ b = a.change f location

/-- Whether a tree is another one with the entries of some directories in other orders. -/
def Reorders : Node → Node → Prop := Relation.ReflTransGen ReordersOne

variable {a b : Node} {f : List (Text × Node) → List (Text × Node)}

theorem HasDistinctNames.reorder (h : a.HasDistinctNames) (hf : ∀ entries, (f entries).Perm entries)
    (location : List Text) : (a.change f location).HasDistinctNames := by
  apply h.change
  · intro entries hnodup
    exact ((hf entries).map Prod.fst).nodup_iff.2 hnodup
  · intro entries hnodup name node hget
    rw [Assoc.get?_perm (hf entries) hnodup] at hget
    exact .inl hget

theorem look_reorder (h : a.HasDistinctNames) (hf : ∀ entries, (f entries).Perm entries)
    (location other : List Text) : (a.change f location).look other = a.look other := by
  induction location generalizing a other with
  | nil =>
    cases other with
    | nil => exact congrArg some (shallow_change f [] a)
    | cons name names =>
      cases a with
      | directory entries =>
        rw [look_cons, look_cons]
        exact congrArg (Option.bind · _) (Assoc.get?_perm (hf entries) (h [] entries rfl) name)
      | _ => rfl
  | cons first rest ih =>
    cases other with
    | nil => exact congrArg some (shallow_change f (first :: rest) a)
    | cons name names =>
      rw [look_cons, look_cons, get?_entries_change]
      cases hget : Assoc.get? name a.entries with
      | none => rfl
      | some node =>
        by_cases hname : name = first
        · rw [Option.map_some, if_pos hname, Option.bind_some, Option.bind_some]
          exact ih (h.child hget) names
        · rw [Option.map_some, if_neg hname]

/-- Trees that differ in the order of entries only look the same everywhere. -/
theorem Reorders.look_eq (h : Reorders a b) (hdistinct : a.HasDistinctNames) :
    b.HasDistinctNames ∧ ∀ location, b.look location = a.look location := by
  induction h with
  | refl => exact ⟨hdistinct, fun _ => rfl⟩
  | tail _ hstep ih =>
    obtain ⟨hdistinct', hlook⟩ := ih
    obtain ⟨f, location, hf, rfl⟩ := hstep
    refine ⟨hdistinct'.reorder hf location, fun other => ?_⟩
    rw [look_reorder hdistinct' hf, hlook]

end Node

/-! ## Sorted names -/

namespace Text

variable {names names' : List Text}

theorem sorted_congr (h : names.Perm names') : sorted names = sorted names' := by
  have hperm : (sorted names).Perm (sorted names') := (perm_sorted names).trans (h.trans (perm_sorted names').symm)
  apply hperm.eq_of_pairwise
  · exact fun s t _ _ hst hts => eq_of_not_before hts hst
  · exact pairwise_sorted names
  · exact pairwise_sorted names'

/-- Different names are sorted strictly. -/
theorem pairwise_before_sorted (h : names.Nodup) : (sorted names).Pairwise fun s t => before s t := by
  have hnodup : (sorted names).Nodup := (perm_sorted names).nodup_iff.2 h
  apply (hnodup.and (pairwise_sorted names)).imp
  rintro s t ⟨hne, hnot⟩
  by_contra hbefore
  exact hne (eq_of_not_before (by simpa using hbefore) hnot)

theorem endsWith_iff {t l : Text} : endsWith t l ↔ l <:+ t := by
  rw [endsWith, startsWith_iff, List.reverse_prefix]

end Text

/-- Whether the parts of a path come before those of another one: name by name, in the order of code points. -/
def Path.Precedes (p q : Path) : Prop := List.Lex (fun s t => Text.before s t) p.parts q.parts

theorem Path.Precedes.ne {p q : Path} (h : p.Precedes q) : p ≠ q := by
  rintro rfl
  have hirreflexive : ∀ t : Text, ¬ Text.before t t := by
    intro t
    rw [Text.before_iff]
    exact lt_irrefl _
  exact List.lex_irrefl hirreflexive p.parts h

namespace Discovery

open FileSystem

variable {fs fs' : FileSystem} {c : Config} {path root : Path} {entries : List (Text × Node)} {paths : List Path}

/-! ## Directories in another order -/

section Reordered

variable (hworking : fs'.working = fs.working) (hlook : ∀ location, fs'.top.look location = fs.top.look location)
  (hdistinct : fs.top.HasDistinctNames) (hdistinct' : fs'.top.HasDistinctNames)

theorem gather_congr {entries' : List (Text × Node)} (hnodup : (Assoc.keys entries).Nodup)
    (hnodup' : (Assoc.keys entries').Nodup)
    (hnames : ∀ name, name ∈ Assoc.keys entries ↔ name ∈ Assoc.keys entries')
    (hfiles : ∀ name, (filesOf fs c (path.child name) (Assoc.get? name entries)).outcome =
      (filesOf fs' c (path.child name) (Assoc.get? name entries')).outcome) :
    (gather (filesIn fs c path entries)).outcome = (gather (filesIn fs' c path entries')).outcome := by
  have hsorted := Text.sorted_congr ((List.perm_ext_iff_of_nodup hnodup hnodup').2 hnames)
  simp only [filesIn_eq hnodup, filesIn_eq hnodup', gather_map, hsorted, hfiles]

theorem outcome_filesAt_directory : (filesAt fs c path (.directory entries)).outcome =
    if path.name ∈ c.excluded then .ok []
    else if isShort path then (gather (filesIn fs c path entries)).outcome
    else .error (.discovery path (.refused (.fault .nameTooLong [path.toText]))) := by
  rw [filesAt]
  split
  · rfl
  · split <;> rfl

include hlook in
/-- Directories list the same names. -/
theorem mem_keys_of_look {location : List Text} {entries' : List (Text × Node)}
    (hat : fs.top.at? location = some (.directory entries))
    (hat' : fs'.top.at? location = some (.directory entries')) (name : Text) :
    name ∈ Assoc.keys entries ↔ name ∈ Assoc.keys entries' := by
  have hnone : fs.top.at? (location ++ [name]) = none ↔ fs'.top.at? (location ++ [name]) = none := by
    rw [← Node.look_eq_none_iff, ← Node.look_eq_none_iff, hlook]
  rw [Node.at?_child hat, Node.at?_child hat', Assoc.get?_eq_none_iff, Assoc.get?_eq_none_iff] at hnone
  exact not_iff_not.1 hnone

include hworking hlook hdistinct hdistinct' in
/-- Each path below the root contributes the same files. -/
theorem outcome_filesOf_congr {here : List Text} (names : List Text) :
    (filesOf fs c (root.below names) (fs.top.at? (here ++ names))).outcome =
      (filesOf fs' c (root.below names) (fs'.top.at? (here ++ names))).outcome := by
  have hsame : fs.top.look (here ++ names) = fs'.top.look (here ++ names) := (hlook _).symm
  cases hat : fs.top.at? (here ++ names) with
  | none => rw [at?_eq_none_of_look hsame hat, filesOf, filesOf]
  | some node =>
    induction node using Node.induction generalizing names with
    | leaf node hnode =>
      rw [at?_eq_some_of_look hsame hnode hat]
      exact filesAt_congr hnode hworking fun other _ => (hlook other).symm
    | directory entries ih =>
      obtain ⟨entries', hat'⟩ := at?_eq_directory_of_look hsame hat
      have hgather : (gather (filesIn fs c (root.below names) entries)).outcome =
          (gather (filesIn fs' c (root.below names) entries')).outcome := by
        apply gather_congr (hdistinct _ _ hat) (hdistinct' _ _ hat') (mem_keys_of_look hlook hat hat')
        intro name
        have hchild : fs.top.at? (here ++ (names ++ [name])) = Assoc.get? name entries := by
          rw [← List.append_assoc, Node.at?_child hat]
        have hchild' : fs'.top.at? (here ++ (names ++ [name])) = Assoc.get? name entries' := by
          rw [← List.append_assoc, Node.at?_child hat']
        have hsame' : fs.top.look (here ++ (names ++ [name])) = fs'.top.look (here ++ (names ++ [name])) :=
          (hlook _).symm
        rw [Path.child_below, ← hchild']
        cases hget : Assoc.get? name entries with
        | none => rw [at?_eq_none_of_look hsame' (hchild.trans hget), filesOf, filesOf]
        | some node =>
          have hentry := (Assoc.get?_eq_some_iff (hdistinct _ _ hat)).1 hget
          exact ih (name, node) hentry (names ++ [name]) hsame' (hchild.trans hget)
      rw [hat', filesOf, filesOf, outcome_filesAt_directory, outcome_filesAt_directory, hgather]

include hworking hlook in
theorem list_congr : (fs.list root).map (fun _ => ()) = (fs'.list root).map (fun _ => ()) := by
  have hseen : ∀ other ∈ fs.footprint .target root.toText, fs.top.look other = fs'.top.look other :=
    fun other _ => (hlook other).symm
  rcases locate_eq_or_directories hworking hseen with hsame | ⟨here, entries, entries', hlocate, hlocate'⟩
  · simp only [list, hsame]
  · simp only [list, hlocate, hlocate']
    rfl

include hworking hlook hdistinct hdistinct' in
/-- The order of entries makes no difference to the source files. -/
theorem outcome_sourceFiles_congr : (sourceFiles fs c root).outcome = (sourceFiles fs' c root).outcome := by
  have hlists : (fs.list root).map (fun _ => ()) = (fs'.list root).map (fun _ => ()) := list_congr hworking hlook
  unfold sourceFiles
  cases hlist : fs.list root with
  | error cause =>
    rw [hlist] at hlists
    rw [map_eq_error_iff.1 hlists.symm]
  | ok entries =>
    rw [hlist] at hlists
    obtain ⟨entries', hlist', -⟩ := map_eq_ok_iff.1 hlists.symm
    rw [hlist']
    obtain ⟨here, hlocate⟩ := list_eq_ok_iff.1 hlist
    obtain ⟨here', hlocate'⟩ := list_eq_ok_iff.1 hlist'
    obtain rfl : here = here' := by
      have hplaces : (fs.locate .target root.toText).map Place.shallow =
          (fs'.locate .target root.toText).map Place.shallow :=
        locate_congr hworking fun other _ => (hlook other).symm
      rw [hlocate, hlocate'] at hplaces
      exact (Place.entry.inj (Except.ok.inj hplaces)).1
    have hat := lookup_entry (locate_eq_ok_iff.1 hlocate).2
    have hat' := lookup_entry (locate_eq_ok_iff.1 hlocate').2
    apply gather_congr (hdistinct _ _ hat) (hdistinct' _ _ hat') (mem_keys_of_look hlook hat hat')
    intro name
    rw [← Node.at?_child hat, ← Node.at?_child hat']
    exact outcome_filesOf_congr hworking hlook hdistinct hdistinct' [name]

end Reordered

/-! ## Paths that are listed -/

/-- Whether the entry at a path counts as a file: as one itself, or as a link to one. -/
def CountsAsFile (fs : FileSystem) (path : Path) : Node → Prop
  | .link _ => ∃ node, fs.status path.toText = .ok node ∧ node.isFile
  | node => node.isFile

/-- Whether names lead from a node at a path to a source file: through directories that are not excluded, to what
counts as a file and has the right end of its name. -/
structure IsSource (fs : FileSystem) (c : Config) (path : Path) (node : Node) (directories : List Text)
    (file : Text) : Prop where
  isDirectory : ∀ above, above <+: directories → ∃ entries, node.at? above = some (.directory entries)
  included : ∀ name ∈ directories, name ∉ c.excluded
  isFile : ∃ leaf, node.at? (directories ++ [file]) = some leaf ∧
    CountsAsFile fs (path.below (directories ++ [file])) leaf
  suffix : c.suffix <:+ file

section Listed

theorem name_child (path : Path) (name : Text) : (path.child name).name = name := by
  rw [Path.name, Path.child, List.getLast?_concat, Option.getD_some]

theorem isSource_nil_iff {file : Text} : IsSource fs c path (.directory entries) [] file ↔
    ∃ leaf, Assoc.get? file entries = some leaf ∧ CountsAsFile fs (path.child file) leaf ∧ c.suffix <:+ file := by
  have hat : Node.at? ([] ++ [file]) (.directory entries) = Assoc.get? file entries := Node.at?_singleton ..
  constructor
  · rintro ⟨-, -, ⟨leaf, hleaf, hfile⟩, hsuffix⟩
    exact ⟨leaf, hat ▸ hleaf, hfile, hsuffix⟩
  · rintro ⟨leaf, hleaf, hfile, hsuffix⟩
    refine ⟨?_, List.forall_mem_nil _, ⟨leaf, hat.trans hleaf, hfile⟩, hsuffix⟩
    intro above habove
    exact ⟨entries, by rw [List.prefix_nil.1 habove, Node.at?]⟩

theorem isSource_cons_iff {name file : Text} {names : List Text} :
    IsSource fs c path (.directory entries) (name :: names) file ↔
      ∃ node, Assoc.get? name entries = some node ∧ name ∉ c.excluded ∧
        IsSource fs c (path.child name) node names file := by
  have hat : ∀ more, Node.at? (name :: more) (.directory entries) =
      (Assoc.get? name entries).bind (Node.at? more) := fun _ => rfl
  constructor
  · rintro ⟨hdirectory, hincluded, ⟨leaf, hleaf, hfile⟩, hsuffix⟩
    rw [List.cons_append, hat] at hleaf
    obtain ⟨node, hget, hleaf⟩ := Option.bind_eq_some_iff.1 hleaf
    obtain ⟨hname, hnames⟩ := List.forall_mem_cons.1 hincluded
    rw [List.cons_append, ← Path.below_child] at hfile
    refine ⟨node, hget, hname, ⟨fun above habove => ?_, hnames, ⟨leaf, hleaf, hfile⟩, hsuffix⟩⟩
    have habove' := hdirectory (name :: above) (List.cons_prefix_cons.2 ⟨rfl, habove⟩)
    rwa [hat, hget, Option.bind_some] at habove'
  · rintro ⟨node, hget, hname, hdirectory, hincluded, ⟨leaf, hleaf, hfile⟩, hsuffix⟩
    refine ⟨?_, List.forall_mem_cons.2 ⟨hname, hincluded⟩, ⟨leaf, ?_, ?_⟩, hsuffix⟩
    · intro above habove
      cases above with
      | nil => exact ⟨entries, rfl⟩
      | cons first above =>
        obtain ⟨rfl, hrest⟩ := List.cons_prefix_cons.1 habove
        rw [hat, hget, Option.bind_some]
        exact hdirectory above hrest
    · rw [List.cons_append, hat, hget, Option.bind_some, hleaf]
    · rwa [List.cons_append, ← Path.below_child]

theorem leadsToFile_eq_true_iff {isFile : Bool} (h : (leadsToFile fs path).outcome = .ok isFile) :
    isFile = true ↔ ∃ node, fs.status path.toText = .ok node ∧ node.isFile := by
  unfold leadsToFile at h
  split at h
  · next node hnode =>
    obtain rfl := Except.ok.inj h
    simp [hnode]
  · next hnone =>
    obtain rfl := Except.ok.inj h
    simp [hnone]
  · cases h

theorem mem_candidate_child_iff {name : Text} {p : Path} :
    p ∈ candidate c (path.child name) ↔ p = path.child name ∧ c.suffix <:+ name := by
  rw [candidate, name_child, ← Text.endsWith_iff]
  split <;> simp_all

/-- What is no directory contributes its own path or nothing. -/
theorem filesAt_leaf_eq {node : Node} (hnode : node.isDirectory = false)
    (h : (filesAt fs c path node).outcome = .ok paths) :
    (CountsAsFile fs path node ∧ paths = candidate c path) ∨ (¬ CountsAsFile fs path node ∧ paths = []) := by
  cases node with
  | directory entries => cases hnode
  | file content mode =>
    rw [filesAt] at h
    exact .inl ⟨rfl, (Except.ok.inj h).symm⟩
  | special reading =>
    rw [filesAt] at h
    cases reading with
    | none => exact .inr ⟨Bool.false_ne_true, (Except.ok.inj h).symm⟩
    | some fault => exact .inl ⟨rfl, (Except.ok.inj h).symm⟩
  | link target =>
    obtain ⟨isFile, hfile, rfl⟩ := filesAt_link_eq_ok_iff.1 h
    have hcounts := leadsToFile_eq_true_iff hfile
    cases isFile with
    | false => exact .inr ⟨fun hcount => Bool.false_ne_true (hcounts.2 hcount), rfl⟩
    | true => exact .inl ⟨hcounts.1 rfl, rfl⟩

/-- What the listing of a directory holds, and in which order. -/
structure Lists (fs : FileSystem) (c : Config) (path : Path) (entries : List (Text × Node))
    (paths : List Path) : Prop where
  mem_iff : ∀ p, p ∈ paths ↔ ∃ directories file, p = path.below (directories ++ [file]) ∧
    IsSource fs c path (.directory entries) directories file
  ordered : paths.Pairwise Path.Precedes

/-- What an entry of a directory contributes to the listing, and in which order. -/
structure EntryLists (fs : FileSystem) (c : Config) (path : Path) (name : Text) (node : Node)
    (paths : List Path) : Prop where
  mem_iff : ∀ p, p ∈ paths ↔ (p = path.child name ∧ CountsAsFile fs (path.child name) node ∧ c.suffix <:+ name) ∨
    (name ∉ c.excluded ∧ ∃ directories file, p = (path.child name).below (directories ++ [file]) ∧
      IsSource fs c (path.child name) node directories file)
  ordered : paths.Pairwise Path.Precedes

theorem EntryLists.of_leaf {name : Text} {node : Node} (hnode : node.isDirectory = false)
    (h : (filesAt fs c (path.child name) node).outcome = .ok paths) : EntryLists fs c path name node paths := by
  have hnone : ∀ directories file, ¬ IsSource fs c (path.child name) node directories file := by
    intro directories file hsource
    obtain ⟨entries, hentries⟩ := hsource.isDirectory [] List.nil_prefix
    rw [Option.some.inj hentries] at hnode
    cases hnode
  rcases filesAt_leaf_eq hnode h with ⟨hcounts, rfl⟩ | ⟨hcounts, rfl⟩
  · constructor
    · intro p
      rw [mem_candidate_child_iff]
      simp [hcounts, hnone]
    · unfold candidate
      split
      · exact List.pairwise_singleton ..
      · exact List.Pairwise.nil
  · constructor
    · simp [hcounts, hnone]
    · exact List.Pairwise.nil

theorem EntryLists.of_directory {name : Text}
    (hlists : ∀ paths, (gather (filesIn fs c (path.child name) entries)).outcome = .ok paths →
      Lists fs c (path.child name) entries paths)
    (h : (filesAt fs c (path.child name) (.directory entries)).outcome = .ok paths) :
    EntryLists fs c path name (.directory entries) paths := by
  have hcounts : ¬ CountsAsFile fs (path.child name) (.directory entries) := Bool.false_ne_true
  rcases filesAt_directory_eq_ok_iff.1 h with ⟨hexcluded, rfl⟩ | ⟨hexcluded, -, hgather⟩
  · rw [name_child] at hexcluded
    constructor
    · simp [hcounts, hexcluded]
    · exact List.Pairwise.nil
  · rw [name_child] at hexcluded
    constructor
    · intro p
      rw [(hlists paths hgather).mem_iff]
      simp [hcounts, hexcluded]
    · exact (hlists paths hgather).ordered

/-- The parts of what an entry contributes begin with those of its directory and its own name. -/
theorem EntryLists.parts_eq {name : Text} {node : Node} (h : EntryLists fs c path name node paths) {p : Path}
    (hp : p ∈ paths) : ∃ more, p.parts = path.parts ++ name :: more := by
  rcases (h.mem_iff p).1 hp with ⟨rfl, -⟩ | ⟨-, directories, file, rfl, -⟩
  · exact ⟨[], rfl⟩
  · exact ⟨directories ++ [file], by rw [Path.below_child, Path.below]⟩

/-- A listing holds what the entries of the directory contribute, name by name. -/
theorem Lists.of_entries (hnodup : (Assoc.keys entries).Nodup) {f : Text → List Path}
    (hsome : ∀ name node, Assoc.get? name entries = some node → EntryLists fs c path name node (f name))
    (hnone : ∀ name, Assoc.get? name entries = none → f name = []) :
    Lists fs c path entries ((Text.sorted (Assoc.keys entries)).flatMap f) := by
  have hentry : ∀ name, (f name).Pairwise Path.Precedes ∧
      ∀ p ∈ f name, ∃ more, p.parts = path.parts ++ name :: more := by
    intro name
    cases hget : Assoc.get? name entries with
    | none =>
      rw [hnone name hget]
      exact ⟨List.Pairwise.nil, List.forall_mem_nil _⟩
    | some node =>
      have hlists := hsome name node hget
      exact ⟨hlists.ordered, fun p hp => hlists.parts_eq hp⟩
  constructor
  · intro p
    rw [List.mem_flatMap]
    constructor
    · rintro ⟨name, hname, hp⟩
      cases hget : Assoc.get? name entries with
      | none =>
        rw [hnone name hget] at hp
        cases hp
      | some node =>
        rcases ((hsome name node hget).mem_iff p).1 hp with ⟨rfl, hcounts, hsuffix⟩ | ⟨hname, directories, file, rfl, hsource⟩
        · exact ⟨[], name, rfl, isSource_nil_iff.2 ⟨node, hget, hcounts, hsuffix⟩⟩
        · refine ⟨name :: directories, file, ?_, isSource_cons_iff.2 ⟨node, hget, hname, hsource⟩⟩
          rw [List.cons_append, ← Path.below_child]
    · have hmem : ∀ {name node}, Assoc.get? name entries = some node →
          name ∈ Text.sorted (Assoc.keys entries) := by
        intro name node hget
        rw [(Text.perm_sorted _).mem_iff]
        by_contra hnot
        cases hget.symm.trans (Assoc.get?_eq_none_iff.2 hnot)
      rintro ⟨directories, file, rfl, hsource⟩
      cases directories with
      | nil =>
        obtain ⟨leaf, hget, hcounts, hsuffix⟩ := isSource_nil_iff.1 hsource
        exact ⟨file, hmem hget, ((hsome file leaf hget).mem_iff _).2 (.inl ⟨rfl, hcounts, hsuffix⟩)⟩
      | cons name directories =>
        obtain ⟨node, hget, hname, hsource⟩ := isSource_cons_iff.1 hsource
        rw [List.cons_append, ← Path.below_child]
        exact ⟨name, hmem hget, ((hsome name node hget).mem_iff _).2 (.inr ⟨hname, directories, file, rfl, hsource⟩)⟩
  · rw [List.pairwise_flatMap]
    refine ⟨fun name _ => (hentry name).1, (Text.pairwise_before_sorted hnodup).imp ?_⟩
    intro s t hst p hp q hq
    obtain ⟨more, hmore⟩ := (hentry s).2 p hp
    obtain ⟨more', hmore'⟩ := (hentry t).2 q hq
    rw [Path.Precedes, hmore, hmore']
    exact List.Lex.append_left (fun s t => Text.before s t) (.rel hst) path.parts

/-- The listing of every directory holds the source files below it. -/
theorem Lists.of_gather (hdistinct : Node.HasDistinctNames (.directory entries))
    (h : (gather (filesIn fs c path entries)).outcome = .ok paths) : Lists fs c path entries paths := by
  generalize hnode : Node.directory entries = node at hdistinct
  induction node using Node.induction generalizing path entries paths with
  | leaf node hleaf =>
    rw [← hnode] at hleaf
    cases hleaf
  | directory all ih =>
    obtain rfl := Node.directory.inj hnode
    have hnodup := hdistinct [] entries rfl
    obtain ⟨f, hf, rfl⟩ := (gather_filesIn_eq_ok_iff hnodup).1 h
    apply Lists.of_entries hnodup
    · intro name node hget
      have hfiles := hf name
      rw [hget, filesOf] at hfiles
      by_cases hleaf : node.isDirectory = false
      · exact EntryLists.of_leaf hleaf hfiles
      · cases node with
        | directory below =>
          apply EntryLists.of_directory _ hfiles
          intro paths hpaths
          have hentry := (Assoc.get?_eq_some_iff hnodup).1 hget
          exact ih (name, .directory below) hentry hpaths rfl (hdistinct.child hget)
        | _ => exact absurd rfl hleaf
    · intro name hget
      have hfiles := hf name
      rw [hget] at hfiles
      exact (Except.ok.inj hfiles).symm

end Listed

/-! ## The listing of a root -/

/-- A listing holds the paths of the source files below the root, each once, in the order of their parts. It is the
same for every order in which directories keep their entries. -/
theorem sourceFiles_spec (hdistinct : fs.top.HasDistinctNames)
    (h : (sourceFiles fs c root).outcome = .ok paths) :
    ∃ here entries, fs.locate .target root.toText = .ok (.entry here (.directory entries)) ∧
      (∀ p, p ∈ paths ↔ ∃ directories file, p = root.below (directories ++ [file]) ∧
        IsSource fs c root (.directory entries) directories file) ∧
      paths.Nodup ∧ paths.Pairwise Path.Precedes ∧
      ∀ top, fs.top.Reorders top → (sourceFiles { fs with top } c root).outcome = .ok paths := by
  obtain ⟨entries, hlist, hgather⟩ := sourceFiles_eq_ok_iff.1 h
  obtain ⟨here, hlocate⟩ := list_eq_ok_iff.1 hlist
  have hat := lookup_entry (locate_eq_ok_iff.1 hlocate).2
  have hlists := Lists.of_gather (hdistinct.below hat) hgather
  refine ⟨here, entries, hlocate, hlists.mem_iff, hlists.ordered.imp Path.Precedes.ne, hlists.ordered, ?_⟩
  intro top htop
  obtain ⟨hdistinct', hlook⟩ := htop.look_eq hdistinct
  have hsame : (sourceFiles fs c root).outcome = (sourceFiles { fs with top } c root).outcome :=
    outcome_sourceFiles_congr rfl hlook hdistinct hdistinct'
  rw [← hsame, h]

/-- A tree whose root has the name of an excluded directory. It holds such a directory, a directory that sorts
between two files, and links to a file, to a directory and to nothing. -/
def mixedTree : FileSystem :=
  ⟨.directory [("test", .directory [("b.php", .link "../x"), ("b", .directory [("z.php", .file [] 0o644)]),
    ("logs", .directory [("y.php", .file [] 0o644)]), ("d.php", .link "b"), ("a.php", .file [] 0o600),
    ("c.php", .link "gone"), ("b.txt", .file [] 0o644)]), ("x", .file [] 0o644)], [], ⟨none, []⟩⟩

theorem sourceFiles_mixedTree : (sourceFiles mixedTree {} "test").outcome =
    .ok ["test/a.php", "test/b/z.php", "test/b.php"] := by cbv

theorem sourceFiles_spec_mixedTree :
    mixedTree.top.HasDistinctNames ∧
      ∃ here entries, mixedTree.locate .target (Path.toText "test") = .ok (.entry here (.directory entries)) ∧
        (∀ p, p ∈ (["test/a.php", "test/b/z.php", "test/b.php"] : List Path) ↔
          ∃ directories file, p = Path.below "test" (directories ++ [file]) ∧
            IsSource mixedTree {} "test" (.directory entries) directories file) ∧
        ∀ top, mixedTree.top.Reorders top → (sourceFiles { mixedTree with top } {} "test").outcome =
          .ok ["test/a.php", "test/b/z.php", "test/b.php"] := by
  have hdistinct : mixedTree.top.HasDistinctNames := by decide +kernel
  obtain ⟨here, entries, hlocate, hmem, -, -, hreorder⟩ := sourceFiles_spec hdistinct sourceFiles_mixedTree
  exact ⟨hdistinct, here, entries, hlocate, hmem, hreorder⟩

end Discovery

end ModuleCatalog
