import Mathlib
import ModuleCatalog.Generation
import ModuleCatalog.Proofs.Artifact.Loading
import ModuleCatalog.Proofs.Discovery.Extraction
import ModuleCatalog.Proofs.Manifest.Build

/-!
# From a source tree to its artifact

A stored manifest has been built from the modules of the source files in their order, has as many modules
as there are files with one, and is loaded again from the path at which it has been stored. Only a target
that leads on through a link which the artifact replaces is lost with that link.
-/

namespace ModuleCatalog.Generation

open FileSystem

/-! ## Modules have categories -/

theorem categories_ne_nil_of_firstModule? {enclosing : Text} {markers : List (Text × Text)} {m : Module}
    (h : Source.firstModule? enclosing markers = some m) : m.categories ≠ [] := by
  obtain ⟨⟨categories, rest⟩, -, hmarker⟩ := List.exists_of_findSome?_eq_some h
  obtain ⟨typeName, -, rfl⟩ := Option.map_eq_some_iff.1 hmarker
  exact Category.parseAll_ne_nil categories

theorem categories_ne_nil_of_declaredModule? {t : Text} {m : Module}
    (h : Source.declaredModule? t = some m) : m.categories ≠ [] := by
  obtain ⟨⟨enclosing, rest⟩, -, hmodule⟩ := Option.bind_eq_some_iff.1 h
  exact categories_ne_nil_of_firstModule? hmodule

/-- The modules of source files are declared in their texts. -/
theorem exists_declaredModule?_of_mem {fs : FileSystem} {files : List Path} {found : List (Option Module)}
    (h : files.mapM (Source.moduleAt? fs) = .ok found) :
    ∀ m ∈ found.filterMap id, ∃ t, Source.declaredModule? t = some m := by
  intro m hm
  obtain ⟨o, ho, rfl⟩ := List.mem_filterMap.1 hm
  obtain ⟨path, -, hpath⟩ := exists_of_mem_mapM h ho
  obtain ⟨text, -, htext⟩ := map_eq_ok_iff.1 hpath
  exact ⟨text, htext⟩

theorem categories_ne_nil_of_mem {fs : FileSystem} {files : List Path} {found : List (Option Module)}
    (h : files.mapM (Source.moduleAt? fs) = .ok found) : ∀ m ∈ found.filterMap id, m.categories ≠ [] := by
  intro m hm
  obtain ⟨text, htext⟩ := exists_declaredModule?_of_mem h m hm
  exact categories_ne_nil_of_declaredModule? htext

/-! ## Stored manifests -/

theorem outcome_generateWith (schedule : Nat → List Nat) (fs : FileSystem) (c : Config) (root : Path) :
    (generateWith schedule fs c root).outcome =
      (Discovery.walkWith schedule fs c root).outcome.map Manifest.build := by
  rw [generateWith, Logged.outcome_bind]
  cases (Discovery.walkWith schedule fs c root).outcome <;> rfl

theorem storeWith_eq_ok_iff {schedule : Nat → List Nat} {fs after : FileSystem} {c : Config} {root : Path}
    {output : Option Path} {stored : Stored} :
    (storeWith schedule fs c root output).1 = after ∧
        (storeWith schedule fs c root output).2.outcome = .ok stored ↔
      ∃ modules, (Discovery.walkWith schedule fs c root).outcome = .ok modules ∧
        ⟨targetOf c root output, Manifest.build modules⟩ = stored ∧
        Artifact.store fs stored.manifest stored.path c.chunkSize = (after, .ok ()) := by
  unfold storeWith
  have hgenerate := outcome_generateWith schedule fs c root
  cases hwalk : (Discovery.walkWith schedule fs c root).outcome with
  | error failure =>
    rw [hwalk] at hgenerate
    simp [hgenerate, Except.map]
  | ok modules =>
    rw [hwalk] at hgenerate
    simp only [hgenerate, Except.map, Logged.bind_eq_ok_iff]
    constructor
    · rintro ⟨rfl, _, hmanifest, _, hstore, h⟩
      obtain rfl := Except.ok.inj hmanifest
      obtain ⟨_, -, h⟩ := h
      exact ⟨modules, rfl, Except.ok.inj h, by rw [← Except.ok.inj h]; exact Prod.ext rfl hstore⟩
    · rintro ⟨_, hmodules, rfl, hstore⟩
      obtain rfl := Except.ok.inj hmodules
      rw [hstore]
      exact ⟨rfl, _, rfl, (), rfl, (), rfl, rfl⟩

/-- A run fails as its walk or as its call to store the artifact does. -/
theorem outcome_storeWith (schedule : Nat → List Nat) (fs : FileSystem) (c : Config) (root : Path)
    (output : Option Path) : (storeWith schedule fs c root output).2.outcome =
      (Discovery.walkWith schedule fs c root).outcome.bind fun modules =>
        (Artifact.store fs (Manifest.build modules) (targetOf c root output) c.chunkSize).2.map fun _ =>
          ⟨targetOf c root output, Manifest.build modules⟩ := by
  have hgenerate := outcome_generateWith schedule fs c root
  unfold storeWith
  cases hwalk : (Discovery.walkWith schedule fs c root).outcome with
  | error failure =>
    rw [hwalk] at hgenerate
    simp only [hgenerate, Except.map, Except.bind]
  | ok modules =>
    rw [hwalk] at hgenerate
    simp only [hgenerate, Except.map, Except.bind, Logged.outcome_bind, Logged.outcome_of]
    cases (Artifact.store fs (Manifest.build modules) (targetOf c root output) c.chunkSize).2 <;> rfl

/-- A run changes what its call to store the artifact changes, if it comes so far. -/
theorem storeWith_fst (schedule : Nat → List Nat) (fs : FileSystem) (c : Config) (root : Path)
    (output : Option Path) : (storeWith schedule fs c root output).1 =
      match (Discovery.walkWith schedule fs c root).outcome with
      | .error _ => fs
      | .ok modules => (Artifact.store fs (Manifest.build modules) (targetOf c root output) c.chunkSize).1 := by
  have hgenerate := outcome_generateWith schedule fs c root
  unfold storeWith
  cases hwalk : (Discovery.walkWith schedule fs c root).outcome <;>
    rw [hwalk] at hgenerate <;> simp only [hgenerate, Except.map]

/-- A run that fails has added directories at most. -/
theorem addsParents_of_error {schedule : Nat → List Nat} {fs : FileSystem} {c : Config} {root : Path}
    {output : Option Path} {failure : Failure} (h : (storeWith schedule fs c root output).2.outcome = .error failure) :
    AddsParents fs (storeWith schedule fs c root output).1 (targetOf c root output).parent := by
  rw [outcome_storeWith] at h
  rw [storeWith_fst]
  cases hwalk : (Discovery.walkWith schedule fs c root).outcome with
  | error cause => exact .refl fs _
  | ok modules =>
    rw [hwalk] at h
    cases hstore : (Artifact.store fs (Manifest.build modules) (targetOf c root output) c.chunkSize).2 with
    | error cause => exact Artifact.addsParents_of_error hstore
    | ok =>
      simp only [Except.bind, hstore] at h
      cases h

/-- A stored manifest has been built from the modules of the source files in their order, and has as many
modules as there are files with one. It is loaded from where it has been stored, unless the path leads on
through a link that the artifact replaces. -/
theorem stored_spec {schedule : Nat → List Nat} {fs : FileSystem} {c : Config} {root : Path}
    {output : Option Path} {stored : Stored}
    (h : (storeWith schedule fs c root output).2.outcome = .ok stored) :
    stored.path = targetOf c root output ∧
    (∃ files found, (Discovery.sourceFiles fs c root).outcome = .ok files ∧
      files.mapM (Source.moduleAt? fs) = .ok found ∧
      stored.manifest = Manifest.build (found.filterMap id) ∧
      stored.manifest.moduleCount = found.countP Option.isSome) ∧
    ∃ before location, AddsParents fs before stored.path.parent ∧
      before.LeadsTo .itself stored.path.toText location ∧
      (before.LeadsAround stored.path location →
        ∃ restored, Artifact.load (storeWith schedule fs c root output).1 stored.path = .ok restored ∧
          stored.manifest.Isomorphic restored) ∧
      (¬ before.LeadsAround stored.path location →
        Artifact.load (storeWith schedule fs c root output).1 stored.path =
          .error (.artifact stored.path (.unreadable (.fault .notDirectory [stored.path.toText])))) ∧
      ((∀ link, before.top.look location ≠ some (.link link)) →
        before.LeadsAround stored.path location) := by
  obtain ⟨modules, hmodules, rfl, hstore⟩ := storeWith_eq_ok_iff.1 ⟨rfl, h⟩
  obtain ⟨-, files, found, hfiles, hfound, rfl⟩ := Discovery.walkWith_eq_ok_iff.1 hmodules
  refine ⟨rfl, ⟨files, found, hfiles, hfound, rfl, ?_⟩, Artifact.load_of_store hstore⟩
  calc (Manifest.build (found.filterMap id)).moduleCount
      = (found.filterMap id).length := Manifest.moduleCount_build (categories_ne_nil_of_mem hfound)
    _ = found.countP Option.isSome := List.length_filterMap_eq_countP

/-! ## A tree with one class -/

/-- A source text that declares a class of one category. -/
def classText : Text := "namespace A;/**@module x\n*/class B"

def classModule : Module := ⟨"A", "B", [.bare "x"]⟩

/-- The artifact of the one class. -/
def classArtifact : Bytes :=
  ((Artifact.encode (Manifest.build [classModule]) 70).toOption.map Utf8.encodeLossy).getD []

/-- A directory with a source file and perhaps other entries. -/
def classTree (others : List (Text × Node)) : FileSystem :=
  ⟨.directory (("a.php", .file (Utf8.encodeLossy classText) 0o644) :: others), [], ⟨none, []⟩⟩

/-- The tree with one class and a file under another name. -/
def storedTree (name : Text) (content : Bytes) : FileSystem := classTree [(name, .file content 0o644)]

theorem declaredModule?_classText : Source.declaredModule? classText = some classModule := by
  have hspace : Source.declaredNamespace? classText =
      some (("A" : Text), ("/**@module x\n*/class B" : Text)) := by decide +kernel
  have hmarker : Source.nextMarker? "/**@module x\n*/class B" =
      some (("x" : Text), ("*/class B" : Text)) := by decide +kernel
  have hlast : Source.nextMarker? "*/class B" = none := by decide +kernel
  simp only [Source.declaredModule?, hspace, Option.bind_eq_bind, Option.bind_some,
    Source.markers_of_some hmarker, Source.markers_of_none hlast]
  decide +kernel

/-- What is found below a root with one source file. -/
structure HoldsFile (fs : FileSystem) (root file : Path) (text : Text) : Prop where
  isDirectory : fs.isDirectory root = .ok true
  sourceFiles : (Discovery.sourceFiles fs {} root).outcome = .ok [file]
  readText : fs.readText file = .ok text

namespace HoldsFile

variable {fs : FileSystem} {root file target : Path} {text : Text} {m : Module}

/-- A tree with one source file is walked. -/
theorem walkWith (h : HoldsFile fs root file text) (hmodule : Source.declaredModule? text = some m) :
    (Discovery.walkWith List.range fs {} root).outcome = .ok [m] := by
  have hat : Source.moduleAt? fs file = .ok (some m) := by
    rw [Source.moduleAt?, h.readText, Except.map, hmodule]
  have hfound : [file].mapM (Source.moduleAt? fs) = .ok [some m] := (mapM_eq_ok_iff ..).2 (.cons hat .nil)
  exact Discovery.walkWith_eq_ok_iff.2 ⟨h.isDirectory, _, _, h.sourceFiles, hfound, rfl⟩

theorem storeWith {after : FileSystem} (h : HoldsFile fs root file classText)
    (htarget : targetOf {} root (some target) = target)
    (hstore : Artifact.store fs (Manifest.build [classModule]) target 70 = (after, .ok ())) :
    (Generation.storeWith List.range fs {} root (some target)).1 = after ∧
      (Generation.storeWith List.range fs {} root (some target)).2.outcome =
        .ok ⟨target, Manifest.build [classModule]⟩ :=
  storeWith_eq_ok_iff.2 ⟨[classModule], h.walkWith declaredModule?_classText, by rw [htarget], hstore⟩

end HoldsFile

/-- No link stands in a directory with one file. -/
theorem look_file_ne_link (name : Text) (content : Bytes) (mode : Nat) (location : List Text) (link : Text) :
    (Node.directory [(name, .file content mode)]).look location ≠ some (.link link) := by
  intro hlink
  rw [Node.look_eq_some_iff rfl] at hlink
  cases location with
  | nil => cases hlink
  | cons first names =>
    obtain ⟨node, hnode, hat⟩ := Option.bind_eq_some_iff.1 hlink
    have hfile : node = .file content mode := by
      by_cases hname : name = first
      · exact (Option.some.inj ((if_pos hname).symm.trans hnode)).symm
      · cases (if_neg hname).symm.trans hnode
    subst hfile
    cases names <;> cases hat

theorem look_classTree_ne_link (location : List Text) (link : Text) :
    (classTree []).top.look location ≠ some (.link link) :=
  look_file_ne_link "a.php" (Utf8.encodeLossy classText) 0o644 location link

theorem holdsFile_classTree : HoldsFile (classTree []) "." "a.php" classText ∧
    HoldsFile (classTree [("d", .link ".")]) "." "a.php" classText :=
  ⟨⟨by cbv, by cbv, by cbv⟩, by cbv, by cbv, by cbv⟩

/-- A new file is made, and the link to the root is replaced. -/
theorem store_classTree : Artifact.store (classTree []) (Manifest.build [classModule]) "m.json" 70 =
      (storedTree "m.json" classArtifact, .ok ()) ∧
    Artifact.store (classTree [("d", .link ".")]) (Manifest.build [classModule]) "d/d" 70 =
      (storedTree "d" classArtifact, .ok ()) :=
  ⟨by cbv, by cbv⟩

theorem storeWith_classTree :
    (storeWith List.range (classTree []) {} "." (some "m.json")).1 = storedTree "m.json" classArtifact ∧
      (storeWith List.range (classTree []) {} "." (some "m.json")).2.outcome =
        .ok ⟨"m.json", Manifest.build [classModule]⟩ :=
  holdsFile_classTree.1.storeWith rfl store_classTree.1

theorem storeWith_linkedTree :
    (storeWith List.range (classTree [("d", .link ".")]) {} "." (some "d/d")).1 = storedTree "d" classArtifact ∧
      (storeWith List.range (classTree [("d", .link ".")]) {} "." (some "d/d")).2.outcome =
        .ok ⟨"d/d", Manifest.build [classModule]⟩ :=
  holdsFile_classTree.2.storeWith rfl store_classTree.2

theorem stored_spec_classTree : ∃ stored restored,
    (storeWith List.range (classTree []) {} "." (some "m.json")).2.outcome = .ok stored ∧
      stored.path = "m.json" ∧ stored.manifest.moduleCount = 1 ∧
      Artifact.load (storeWith List.range (classTree []) {} "." (some "m.json")).1 stored.path =
        .ok restored ∧
      stored.manifest.Isomorphic restored := by
  obtain ⟨-, h⟩ := storeWith_classTree
  obtain ⟨hpath, -, before, location, hadds, -, hload, -, haround⟩ := stored_spec h
  have hlink : ∀ link, before.top.look location ≠ some (.link link) :=
    hadds.look_ne_link (look_classTree_ne_link location)
  obtain ⟨restored, hrestored, hisomorphic⟩ := hload (haround hlink)
  exact ⟨_, restored, h, hpath, rfl, hrestored, hisomorphic⟩

/-- A stored manifest is not always loaded: the path goes through a link that the artifact has replaced. -/
theorem not_load_classTree : ∃ stored,
    (storeWith List.range (classTree [("d", .link ".")]) {} "." (some "d/d")).2.outcome = .ok stored ∧
      Artifact.load (storeWith List.range (classTree [("d", .link ".")]) {} "." (some "d/d")).1 stored.path =
        .error (.artifact "d/d" (.unreadable (.fault .notDirectory ["d/d"]))) := by
  -- The path is broken off whatever the content of the artifact is.
  have hload : ∀ content, Artifact.load (storedTree "d" content) "d/d" =
      .error (.artifact "d/d" (.unreadable (.fault .notDirectory ["d/d"]))) := by
    intro content
    cbv
  obtain ⟨hafter, h⟩ := storeWith_linkedTree
  refine ⟨_, h, ?_⟩
  rw [hafter]
  exact hload classArtifact

end ModuleCatalog.Generation
