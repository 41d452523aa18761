import ModuleCatalog.Proofs.Discovery.SourceFiles
import ModuleCatalog.Proofs.FileSystem.Children
import ModuleCatalog.Proofs.FileSystem.Footprint
import ModuleCatalog.Proofs.FileSystem.Replacement

/-!
# Walks after a file has been put into the tree

After a file has been put somewhere, with directories that were missing, the same source files are found again, but
for the one that has been put in place. So the same modules are, if neither that file nor what stood in its place
declares one.
-/

namespace ModuleCatalog.Discovery

open FileSystem

/-! ## What is looked at again -/

/-- Whether everything below a directory that was there before is found as before, but for what stands at a
location, and what has come can be reached. -/
structure FindsAgain (fs after : FileSystem) (root : Path) (here location : List Text) : Prop where
  kept : ∀ names, fs.top.look (here ++ names) ≠ none → here ++ names ≠ location →
    ∀ other ∈ fs.footprint .target (root.below names).toText, fs.top.look other = after.top.look other
  added : ∀ names, here ++ names = location ∨ (fs.top.look (here ++ names) = none ∧
    after.top.look (here ++ names) ≠ none) →
      ∃ node, after.locate .target (root.below names).toText = .ok (.entry (here ++ names) node)

/-- Below the top only the locations at which something stands have to be looked at. -/
theorem FindsAgain.of_locations {fs after : FileSystem} {root : Path} {location : List Text}
    (hlocation : location ∈ after.top.locations)
    (hkept : ∀ names ∈ fs.top.locations, names ≠ location →
      ∀ other ∈ fs.footprint .target (root.below names).toText, fs.top.look other = after.top.look other)
    (hadded : ∀ names ∈ after.top.locations, names = location ∨ fs.top.look names = none →
      ∃ node, after.locate .target (root.below names).toText = .ok (.entry names node)) :
    FindsAgain fs after root [] location where
  kept := fun names hnames => hkept names (Node.mem_locations (mt Node.look_eq_none_iff.2 hnames))
  added := by
    rintro names (rfl | ⟨hnone, hsome⟩)
    · exact hadded _ hlocation (.inl rfl)
    · exact hadded names (Node.mem_locations (mt Node.look_eq_none_iff.2 hsome)) (.inr hnone)

section Again

variable {fs after : FileSystem} {c : Config} {root : Path} {here location : List Text} {content : Bytes}
  {mode : Nat} {keep : Path → Bool}

theorem isShort_of_locate {path : Path} {p : Place} (h : fs.locate .target path.toText = .ok p) :
    isShort path := by
  obtain ⟨-, hlookup⟩ := locate_eq_ok_iff.1 h
  obtain ⟨-, hshort, -⟩ := lookup_eq_ok_iff.1 hlookup
  rw [byteLength_asRead] at hshort
  exact decide_eq_true hshort

theorem leadsToFile_congr {path : Path} (hworking : after.working = fs.working)
    (h : ∀ other ∈ fs.footprint .target path.toText, fs.top.look other = after.top.look other) :
    (leadsToFile fs path).outcome = (leadsToFile after path).outcome := by
  rcases locate_eq_or_directories hworking h with hsame | ⟨here, entries, entries', hlocate, hlocate'⟩
  · simp only [leadsToFile, status, hsame]
  · simp only [leadsToFile, status, hlocate, hlocate']
    rfl

theorem filesAt_congr {path : Path} {node : Node} (hnode : node.isDirectory = false)
    (hworking : after.working = fs.working)
    (h : ∀ other ∈ fs.footprint .target path.toText, fs.top.look other = after.top.look other) :
    (filesAt fs c path node).outcome = (filesAt after c path node).outcome := by
  cases node with
  | directory entries => cases hnode
  | link target => rw [filesAt, filesAt, Logged.outcome_bind, Logged.outcome_bind, leadsToFile_congr hworking h]
  | file content mode => rw [filesAt, filesAt]
  | special reading => rw [filesAt, filesAt]

/-! ## Source files -/

section Tree

/-- Whether the path with some names contributes the same files as before, but for those that are left out. -/
def FoundAgain (fs after : FileSystem) (c : Config) (root : Path) (here : List Text) (keep : Path → Bool)
    (names : List Text) : Prop :=
  ∀ paths, (filesOf fs c (root.below names) (fs.top.at? (here ++ names))).outcome = .ok paths →
    ∃ paths', (filesOf after c (root.below names) (after.top.at? (here ++ names))).outcome = .ok paths' ∧
      paths'.filter keep = paths.filter keep

variable (hputs : PutsFile fs location content mode after) (hagain : FindsAgain fs after root here location)
  (hdistinct : fs.top.HasDistinctNames) (hdistinct' : after.top.HasDistinctNames)
  (hkeep : ∀ names, here ++ names = location → keep (root.below names) = false)

include hputs hkeep in
/-- At the location itself at most its own path is found, before and after. -/
theorem foundAgain_location {names : List Text} (hlocation : here ++ names = location) :
    FoundAgain fs after c root here keep names := by
  intro paths h
  rw [hlocation] at h ⊢
  have hempty : ∀ paths : List Path, (∀ p ∈ paths, p = root.below names) → paths.filter keep = [] := by
    intro paths hpaths
    rw [List.filter_eq_nil_iff]
    intro p hp
    rw [hpaths p hp, hkeep names hlocation]
    exact Bool.false_ne_true
  have hbefore : ∀ p ∈ paths, p = root.below names := by
    cases hat : fs.top.at? location with
    | none =>
      rw [hat] at h
      rw [← Except.ok.inj h]
      exact List.forall_mem_nil _
    | some node =>
      rw [hat] at h
      exact eq_of_mem_filesAt (hputs.not_isDirectory hat) h
  refine ⟨candidate c (root.below names), ?_, ?_⟩
  · rw [hputs.at?_location, filesOf, filesAt, Logged.outcome_pure]
  · rw [hempty _ hbefore, hempty _ fun p hp => eq_of_mem_candidate hp]

include hputs hdistinct' in
/-- A directory contributes the same files if all its names do. -/
theorem gather_again {names : List Text} {entries entries' : List (Text × Node)}
    (hnodup : (Assoc.keys entries).Nodup)
    (hbefore : ∀ name, fs.top.at? (here ++ (names ++ [name])) = Assoc.get? name entries)
    (hat : after.top.at? (here ++ names) = some (.directory entries'))
    (hentries : ∀ name, FoundAgain fs after c root here keep (names ++ [name])) {paths : List Path}
    (h : (gather (filesIn fs c (root.below names) entries)).outcome = .ok paths) :
    ∃ paths', (gather (filesIn after c (root.below names) entries')).outcome = .ok paths' ∧
      paths'.filter keep = paths.filter keep := by
  have hnodup' := hdistinct' _ _ hat
  have hafter : ∀ name, after.top.at? (here ++ (names ++ [name])) = Assoc.get? name entries' := by
    intro name
    rw [← List.append_assoc, Node.at?_child hat]
  have hsubset : Assoc.keys entries ⊆ Assoc.keys entries' := by
    intro name hname
    by_contra hnone
    rw [← Assoc.get?_eq_none_iff, ← hafter] at hnone
    have hgone := hputs.at?_eq_none hnone
    rw [hbefore, Assoc.get?_eq_none_iff] at hgone
    exact hgone hname
  obtain ⟨f, hf, rfl⟩ := (gather_filesIn_eq_ok_iff hnodup).1 h
  have hfound : ∀ name, ∃ paths',
      (filesOf after c ((root.below names).child name) (Assoc.get? name entries')).outcome = .ok paths' ∧
        paths'.filter keep = (f name).filter keep := by
    intro name
    have hname := hf name
    rw [Path.child_below, ← hbefore] at hname
    rw [Path.child_below, ← hafter]
    exact hentries name _ hname
  choose f' hf' hfilter using hfound
  refine ⟨_, (gather_filesIn_eq_ok_iff hnodup').2 ⟨f', hf', rfl⟩, ?_⟩
  have hnone : ∀ name ∈ Assoc.keys entries', name ∉ Assoc.keys entries → (f name).filter keep = [] := by
    intro name _ hname
    have hempty := hf name
    rw [Assoc.get?_eq_none_iff.2 hname] at hempty
    rw [← Except.ok.inj hempty, List.filter_nil]
  calc ((Text.sorted (Assoc.keys entries')).flatMap f').filter keep
      = (Text.sorted (Assoc.keys entries')).flatMap fun name => (f name).filter keep := by
        rw [List.filter_flatMap]
        exact List.flatMap_congr fun name _ => hfilter name
    _ = (Text.sorted (Assoc.keys entries)).flatMap fun name => (f name).filter keep :=
        Text.flatMap_sorted hnodup hnodup' hsubset hnone
    _ = ((Text.sorted (Assoc.keys entries)).flatMap f).filter keep := List.filter_flatMap.symm

include hputs hagain hdistinct hdistinct' in
/-- A directory, whether it was there before or not, contributes the same files if all its names do. -/
theorem foundAgain_directory {names : List Text} {entries' : List (Text × Node)}
    (hat : after.top.at? (here ++ names) = some (.directory entries'))
    (hentries : ∀ name, FoundAgain fs after c root here keep (names ++ [name])) :
    FoundAgain fs after c root here keep names := by
  intro paths h
  have hlook := Node.look_eq_directory_iff.2 ⟨entries', hat⟩
  have hlocation : here ++ names ≠ location := by
    intro heq
    rw [heq, hputs.at?_location] at hat
    cases hat
  -- A directory that was missing is like an empty one.
  have hbefore : ∃ entries, (Assoc.keys entries).Nodup ∧
      (∀ name, fs.top.at? (here ++ (names ++ [name])) = Assoc.get? name entries) ∧
      (((root.below names).name ∈ c.excluded ∧ [] = paths) ∨
        ((root.below names).name ∉ c.excluded ∧ isShort (root.below names) ∧
          (gather (filesIn fs c (root.below names) entries)).outcome = .ok paths)) := by
    rcases hputs.others _ hlocation with hsame | ⟨hnone, -⟩
    · obtain ⟨entries, hentries⟩ := Node.look_eq_directory_iff.1 (hsame.symm.trans hlook)
      rw [hentries] at h
      refine ⟨entries, hdistinct _ _ hentries, fun name => ?_, filesAt_directory_eq_ok_iff.1 h⟩
      rw [← List.append_assoc, Node.at?_child hentries]
    · obtain ⟨_, hlocate⟩ := hagain.added names (.inr ⟨hnone, by simp [hlook]⟩)
      have hshort := isShort_of_locate hlocate
      rw [Node.look_eq_none_iff] at hnone
      rw [hnone] at h
      refine ⟨[], List.nodup_nil, fun name => ?_, ?_⟩
      · rw [← List.append_assoc, Node.at?_append, hnone]
        rfl
      · have hempty : (gather (filesIn fs c (root.below names) [])).outcome = .ok [] := by
          simp [filesIn, gather, Text.sortOn]
        rw [← Except.ok.inj h]
        by_cases hexcluded : (root.below names).name ∈ c.excluded
        · exact .inl ⟨hexcluded, rfl⟩
        · exact .inr ⟨hexcluded, hshort, hempty⟩
  obtain ⟨entries, hnodup, hat', hexcluded | ⟨hexcluded, hshort, hgather⟩⟩ := hbefore
  · rw [hat]
    exact ⟨[], filesAt_directory_eq_ok_iff.2 (.inl ⟨hexcluded.1, rfl⟩), by rw [← hexcluded.2]⟩
  · obtain ⟨paths', hpaths', hfilter⟩ := gather_again hputs hdistinct' hnodup hat' hat hentries hgather
    rw [hat]
    exact ⟨paths', filesAt_directory_eq_ok_iff.2 (.inr ⟨hexcluded, hshort, hpaths'⟩), hfilter⟩

include hputs in
theorem foundAgain_none {names : List Text} (hat : after.top.at? (here ++ names) = none) :
    FoundAgain fs after c root here keep names := by
  intro paths h
  rw [hputs.at?_eq_none hat] at h
  rw [hat]
  exact ⟨paths, h, rfl⟩

include hputs hagain hkeep in
theorem foundAgain_leaf {names : List Text} {node : Node} (hnode : node.isDirectory = false)
    (hat : after.top.at? (here ++ names) = some node) : FoundAgain fs after c root here keep names := by
  by_cases hlocation : here ++ names = location
  · exact foundAgain_location hputs hkeep hlocation
  · have hlook := (Node.look_eq_some_iff hnode).2 hat
    rcases hputs.others _ hlocation with hsame | ⟨-, hdirectory⟩
    · have hbefore := (Node.look_eq_some_iff hnode).1 (hsame.symm.trans hlook)
      have hpresent : fs.top.look (here ++ names) ≠ none := by
        rw [← hsame, hlook]
        exact Option.some_ne_none node
      have hcongr : (filesAt fs c (root.below names) node).outcome =
          (filesAt after c (root.below names) node).outcome :=
        filesAt_congr hnode hputs.working (hagain.kept names hpresent hlocation)
      intro paths h
      rw [hbefore, filesOf] at h
      rw [hat, filesOf, ← hcongr]
      exact ⟨paths, h, rfl⟩
    · obtain rfl := Option.some.inj (hlook.symm.trans hdirectory)
      cases hnode

include hputs hagain hdistinct hdistinct' hkeep in
/-- Each path below the root contributes the same files, but for the one at the location. -/
theorem foundAgain (names : List Text) : FoundAgain fs after c root here keep names := by
  cases hat : after.top.at? (here ++ names) with
  | none => exact foundAgain_none hputs hat
  | some node =>
    induction node using Node.induction generalizing names with
    | leaf node hnode => exact foundAgain_leaf hputs hagain hkeep hnode hat
    | directory entries ih =>
      apply foundAgain_directory hputs hagain hdistinct hdistinct' hat
      intro name
      have hchild : after.top.at? (here ++ (names ++ [name])) = Assoc.get? name entries := by
        rw [← List.append_assoc, Node.at?_child hat]
      cases hget : Assoc.get? name entries with
      | none => exact foundAgain_none hputs (hchild.trans hget)
      | some node =>
        have hentry := (Assoc.get?_eq_some_iff (hdistinct' _ _ hat)).1 hget
        exact ih (name, node) hentry (names ++ [name]) (hchild.trans hget)

include hputs hagain in
/-- The root is still a directory at the same place. -/
theorem lookup_root_again {entries : List (Text × Node)}
    (hroot : fs.lookup .target root.toText = .ok (.entry here (.directory entries))) :
    ∃ entries', after.lookup .target root.toText = .ok (.entry here (.directory entries')) := by
  have hlook := Node.look_eq_directory_iff.2 ⟨entries, lookup_entry hroot⟩
  have hkept := hagain.kept [] (by simp [hlook]) (by
    rintro rfl
    exact hputs.not_directory (by simpa using hlook))
  rw [Path.below_nil] at hkept
  exact lookup_directory_of_shallow (lookup_congr hputs.working hkept) hroot

include hputs hagain hdistinct hdistinct' hkeep in
/-- The same source files are found again, but for the one that has been put in place. -/
theorem sourceFiles_again (hroot : fs.LeadsTo .target root.toText here) {paths : List Path}
    (h : (sourceFiles fs c root).outcome = .ok paths) :
    ∃ paths', (sourceFiles after c root).outcome = .ok paths' ∧ paths'.filter keep = paths.filter keep := by
  obtain ⟨entries, hlist, hgather⟩ := sourceFiles_eq_ok_iff.1 h
  obtain ⟨other, hlocate⟩ := list_eq_ok_iff.1 hlist
  obtain ⟨hchecked, hlookup⟩ := locate_eq_ok_iff.1 hlocate
  obtain rfl : other = here := (hroot.location_eq ⟨_, hlookup, rfl⟩).symm
  obtain ⟨entries', hlookup'⟩ := lookup_root_again hputs hagain hlookup
  have hlist' := list_eq_ok_iff.2 ⟨other, locate_eq_ok_iff.2 ⟨hchecked, hlookup'⟩⟩
  have hbefore : ∀ name, fs.top.at? (other ++ ([] ++ [name])) = Assoc.get? name entries :=
    fun name => Node.at?_child (lookup_entry hlookup) name
  have hat : after.top.at? (other ++ []) = some (.directory entries') := by
    rw [List.append_nil]
    exact lookup_entry hlookup'
  rw [← root.below_nil] at hgather
  obtain ⟨paths', hpaths', hfilter⟩ := gather_again hputs hdistinct'
    (hdistinct _ _ (lookup_entry hlookup)) hbefore hat
    (fun name => foundAgain hputs hagain hdistinct hdistinct' hkeep ([] ++ [name])) hgather
  rw [root.below_nil] at hpaths'
  exact ⟨paths', sourceFiles_eq_ok_iff.2 ⟨entries', hlist', hpaths'⟩, hfilter⟩

end Tree

/-! ## Modules -/

theorem moduleAt?_congr {path : Path} (hworking : after.working = fs.working)
    (h : ∀ other ∈ fs.footprint .target path.toText, fs.top.look other = after.top.look other) :
    Source.moduleAt? fs path = Source.moduleAt? after path := by
  rw [Source.moduleAt?, Source.moduleAt?, readText, readText, read_congr hworking h]

/-- A file that declares no module, read where it has been put. -/
theorem moduleAt?_of_locate {path : Path} {text : Text} {node : Node}
    (hputs : PutsFile fs location content mode after) (htext : textOf content = .ok text)
    (hnone : Source.declaredModule? text = none)
    (h : after.locate .target path.toText = .ok (.entry location node)) :
    Source.moduleAt? after path = .ok none := by
  have hat := lookup_entry (locate_eq_ok_iff.1 h).2
  obtain rfl := Option.some.inj (hat.symm.trans hputs.at?_location)
  have hread : after.read path = .ok content := by
    simp only [FileSystem.read, h, bind, Except.bind]
  have hreadText : after.readText path = .ok text := by
    simp only [readText, hread, htext, bind, Except.bind, Except.mapError]
  rw [Source.moduleAt?, hreadText, Except.map, hnone]

/-- Whether a path below a root is that of another place than the given one. -/
def isElsewhere (root : Path) (here location : List Text) (path : Path) : Bool :=
  !decide (here <+: location ∧ path = root.below (location.drop here.length))

theorem isElsewhere_eq_false_iff {path : Path} : isElsewhere root here location path = false ↔
    ∃ names, here ++ names = location ∧ path = root.below names := by
  rw [isElsewhere, Bool.not_eq_false', decide_eq_true_eq]
  constructor
  · rintro ⟨⟨names, rfl⟩, hpath⟩
    rw [List.drop_left] at hpath
    exact ⟨names, rfl, hpath⟩
  · rintro ⟨names, rfl, rfl⟩
    rw [List.drop_left]
    exact ⟨List.prefix_append .., rfl⟩

/-- The same modules are found again, if neither the file that has been put in place nor what stood there
declares one. -/
theorem walkWith_again {schedule schedule' : Nat → List Nat} {text : Text} {modules : List Module}
    (hputs : PutsFile fs location content mode after) (hagain : FindsAgain fs after root here location)
    (hdistinct : fs.top.HasDistinctNames) (hdistinct' : after.top.HasDistinctNames)
    (hroot : fs.LeadsTo .target root.toText here) (htext : textOf content = .ok text)
    (hnone : Source.declaredModule? text = none)
    (hown : ∀ files, (sourceFiles fs c root).outcome = .ok files → ∀ names, here ++ names = location →
      root.below names ∈ files → Source.moduleAt? fs (root.below names) = .ok none)
    (h : (walkWith schedule fs c root).outcome = .ok modules) :
    (walkWith schedule' after c root).outcome = .ok modules := by
  let keep := isElsewhere root here location
  have hkeep : ∀ names, here ++ names = location → keep (root.below names) = false :=
    fun names hnames => isElsewhere_eq_false_iff.2 ⟨names, hnames, rfl⟩
  obtain ⟨hdirectory, files, found, hfiles, hfound, rfl⟩ := walkWith_eq_ok_iff.1 h
  obtain ⟨files', hfiles', hfilter⟩ :=
    sourceFiles_again hputs hagain hdistinct hdistinct' hkeep hroot hfiles
  obtain ⟨g, hg, rfl⟩ := mapM_eq_ok_iff_map.1 hfound
  -- Files elsewhere have the same modules, and the file at the location has none before and after.
  have helsewhere : ∀ p ∈ files', keep p = true → Source.moduleAt? after p = .ok (g p) := by
    intro p hp hkept
    have hmem : p ∈ files := List.mem_of_mem_filter (hfilter ▸ List.mem_filter.2 ⟨hp, hkept⟩)
    obtain ⟨names, leaf, rfl, hat, hleaf⟩ := exists_of_mem_sourceFiles hdistinct hroot hfiles p hmem
    have hpresent : fs.top.look (here ++ names) ≠ none := by
      rw [(Node.look_eq_some_iff hleaf).2 hat]
      exact Option.some_ne_none leaf
    have hlocation : here ++ names ≠ location := by
      intro heq
      cases (hkeep names heq).symm.trans hkept
    rw [← moduleAt?_congr hputs.working (hagain.kept names hpresent hlocation)]
    exact hg _ hmem
  have hthere : ∀ p ∈ files', keep p = false → Source.moduleAt? after p = .ok none := by
    intro p _ hkept
    obtain ⟨names, hnames, rfl⟩ := isElsewhere_eq_false_iff.1 hkept
    obtain ⟨node, hlocate⟩ := hagain.added names (.inl hnames)
    rw [hnames] at hlocate
    exact moduleAt?_of_locate hputs htext hnone hlocate
  have hbefore : ∀ p ∈ files, keep p = false → g p = none := by
    intro p hp hkept
    obtain ⟨names, hnames, rfl⟩ := isElsewhere_eq_false_iff.1 hkept
    exact Except.ok.inj ((hg _ hp).symm.trans (hown files hfiles names hnames hp))
  have hfound' : files'.mapM (Source.moduleAt? after) =
      .ok (files'.map fun p => if keep p then g p else none) := by
    refine mapM_eq_ok_iff_map.2 ⟨_, fun p hp => ?_, rfl⟩
    cases hkept : keep p with
    | true => exact helsewhere p hp hkept
    | false => exact hthere p hp hkept
  refine walkWith_eq_ok_iff.2 ⟨?_, files', _, hfiles', hfound', ?_⟩
  · obtain ⟨other, entries, hlocate⟩ := isDirectory_eq_true_iff.1 hdirectory
    obtain ⟨hchecked, hlookup⟩ := locate_eq_ok_iff.1 hlocate
    obtain rfl : other = here := (hroot.location_eq ⟨_, hlookup, rfl⟩).symm
    obtain ⟨entries', hlookup'⟩ := lookup_root_again hputs hagain hlookup
    exact isDirectory_eq_true_iff.2 ⟨other, entries', locate_eq_ok_iff.2 ⟨hchecked, hlookup'⟩⟩
  · have hskip : files.filterMap (fun p => if keep p then g p else none) = files.filterMap g := by
      apply List.filterMap_congr
      intro p hp
      cases hkept : keep p with
      | true => exact if_pos rfl
      | false => exact (if_neg Bool.false_ne_true).trans (hbefore p hp hkept).symm
    calc (files'.map fun p => if keep p then g p else none).filterMap id
        = (files'.filter keep).filterMap g := by rw [List.filterMap_map, List.filterMap_filter]; rfl
      _ = (files.filter keep).filterMap g := by rw [hfilter]
      _ = files.filterMap g := by rw [List.filterMap_filter, hskip]
      _ = (files.map g).filterMap id := by rw [List.filterMap_map]; rfl

end Again

end ModuleCatalog.Discovery
