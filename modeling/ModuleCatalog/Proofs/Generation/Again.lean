import ModuleCatalog.Proofs.Artifact.Characters
import ModuleCatalog.Proofs.Artifact.Repeat
import ModuleCatalog.Proofs.Discovery.Again
import ModuleCatalog.Proofs.Generation

/-!
# Generating the same artifact again

After a manifest has been stored, a second run with the same arguments builds the same manifest and leaves the file
system as it is. The artifact may stand in the source tree and be read as a source file, since it declares no
module. What the second run needs is that its paths do not lead through what the first run has put there.
-/

namespace ModuleCatalog.Generation

open FileSystem Discovery

/-- A second run gives the same manifest and changes nothing that is seen. The target must lead to the artifact, and
neither the root, nor an entry below it other than the target, nor the path of the directory of the temporary file
may lead through what the first run has put there. -/
theorem storeWith_again {schedule schedule' : Nat → List Nat} {fs after : FileSystem} {c : Config} {root : Path}
    {output : Option Path} {stored : Stored} {here location : List Text}
    (h : (storeWith schedule fs c root output).1 = after ∧
      (storeWith schedule fs c root output).2.outcome = .ok stored)
    (hdistinct : fs.top.HasDistinctNames) (hname : IsEntryName stored.path.name)
    (hroot : fs.LeadsTo .target root.toText here) (hleads : after.LeadsTo .itself stored.path.toText location)
    (hown : ∀ files, (sourceFiles fs c root).outcome = .ok files → ∀ names, here ++ names = location →
      root.below names ∈ files → Source.moduleAt? fs (root.below names) = .ok none)
    (hagain : FindsAgain fs after root here location)
    (havoids : location ∉ after.footprint .target (after.absolute stored.path.parent).toText) :
    (storeWith schedule' after c root output).2.outcome = .ok stored ∧
      (∀ other, (storeWith schedule' after c root output).1.top.look other = after.top.look other) ∧
      ∃ bytes, after.read stored.path = .ok bytes ∧
        (storeWith schedule' after c root output).1.read stored.path = .ok bytes := by
  obtain ⟨modules, hmodules, rfl, hstore⟩ := storeWith_eq_ok_iff.1 h
  obtain ⟨text, bytes, before, place, hencode, hbytes, hmake, -, -, hreplaces⟩ :=
    Artifact.exists_replaces_of_store hstore
  obtain rfl := hreplaces.location_eq hleads
  have hadds : AddsParents fs before (targetOf c root output).parent := by
    have hmade := addsParents_ensureDirectories fs (targetOf c root output).parent
      (targetOf c root output).parent.parts.length
    rwa [upTo_length, hmake] at hmade
  -- The artifact declares no module, so the second walk finds the same modules.
  have hdeclared : ∀ m ∈ modules, ∃ t, Source.declaredModule? t = some m := by
    obtain ⟨-, files, found, -, hfound, rfl⟩ := walkWith_eq_ok_iff.1 hmodules
    exact exists_declaredModule?_of_mem hfound
  have hnone := Artifact.declaredModule?_of_encode hdeclared hencode
  have hwalk : (walkWith schedule' after c root).outcome = .ok modules :=
    walkWith_again (hreplaces.putsFile hadds) hagain hdistinct
      (Artifact.hasDistinctNames_of_store hdistinct hstore) hroot (Artifact.textOf_of_encode hencode hbytes)
      hnone hown hmodules
  -- And so the same artifact is stored again.
  obtain ⟨final, hfinal, hworking, hlook⟩ := Artifact.store_again hdistinct hname hstore hleads havoids
  obtain ⟨hstate, houtcome⟩ := storeWith_eq_ok_iff.2 ⟨modules, hwalk, rfl, hfinal⟩
  rw [hstate]
  refine ⟨houtcome, hlook, bytes, hreplaces.read hleads, ?_⟩
  rw [read_congr hworking.symm fun other _ => hlook other]
  exact hreplaces.read hleads

/-! ## Trees with one class -/

/-- In a tree with one class everything is found again but for what stands under the other name. -/
theorem findsAgain_storedTree {others : List (Text × Node)} {name : Text} {content : Bytes}
    (hothers : (classTree others).top.locations ⊆ [[], [("a.php" : Text)], [name]]) (hname : "a.php" ≠ name)
    (hlocate : (storedTree name content).locate .target (Path.below "." [name]).toText =
      .ok (.entry [name] (.file content 0o644))) :
    FindsAgain (classTree others) (storedTree name content) "." [] [name] := by
  have hroot : (classTree others).footprint .target (Path.below "." []).toText = [[], []] := by cbv
  have hfile : (classTree others).footprint .target (Path.below "." ["a.php"]).toText =
      ([[], ["a.php"], ["a.php"]] : List (List Text)) := by cbv
  have hsame : ∀ other ∈ ([[], ["a.php"]] : List (List Text)),
      (classTree others).top.look other = (storedTree name content).top.look other := by
    simp only [List.forall_mem_cons]
    exact ⟨rfl, rfl, List.forall_mem_nil _⟩
  have hlocations : (storedTree name content).top.locations = [[], [("a.php" : Text)], [name]] := rfl
  apply FindsAgain.of_locations
  · rw [hlocations]
    simp
  · intro names hnames hother other hfootprint
    apply hsame
    have hcases : names = [] ∨ names = ([("a.php" : Text)] : List Text) ∨ names = [name] := by
      simpa using hothers hnames
    rcases hcases with rfl | rfl | rfl
    · rw [hroot] at hfootprint
      simp_all
    · rw [hfile] at hfootprint
      simp_all
    · exact absurd rfl hother
  · intro names hnames hnew
    have hcases : names = [] ∨ names = ([("a.php" : Text)] : List Text) ∨ names = [name] := by
      simpa [hlocations] using hnames
    rcases hcases with rfl | rfl | rfl
    · exact hnew.elim (fun h => by cases h) (fun h => by cases h)
    · exact hnew.elim (fun h => absurd (List.cons.inj h).1 hname) (fun h => by cases h)
    · exact ⟨_, hlocate⟩

/-- The second run reads the artifact as a source file. -/
theorem storeWith_again_storedTree : ∃ stored,
    (storeWith List.range (classTree []) {} "." (some "m.php")).2.outcome = .ok stored ∧
      (sourceFiles (storedTree "m.php" classArtifact) {} ".").outcome = .ok ["a.php", "m.php"] ∧
      (storeWith List.range (storedTree "m.php" classArtifact) {} "." (some "m.php")).2.outcome = .ok stored ∧
      (storeWith List.range (storedTree "m.php" classArtifact) {} "." (some "m.php")).1.read "m.php" =
        .ok classArtifact := by
  have hroot : (classTree []).LeadsTo .target (Path.toText ".") [] :=
    ⟨.entry [] (classTree []).top, by cbv, rfl⟩
  have hown : ∀ files, (sourceFiles (classTree []) {} ".").outcome = .ok files →
      ∀ names, [] ++ names = (["m.php"] : List Text) → Path.below "." names ∈ files →
        Source.moduleAt? (classTree []) (Path.below "." names) = .ok none := by
    intro files hfound names hnames hmem
    obtain rfl := Except.ok.inj (holdsFile_classTree.1.sourceFiles.symm.trans hfound)
    obtain rfl : names = ["m.php"] := hnames
    exact absurd hmem (by decide)
  -- What follows does not depend on the content of the artifact.
  have hleads : ∀ content, (storedTree "m.php" content).LeadsTo .itself (Path.toText "m.php") ["m.php"] :=
    fun content => ⟨.entry ["m.php"] (.file content 0o644), by cbv, rfl⟩
  have hagain : ∀ content, FindsAgain (classTree []) (storedTree "m.php" content) "." [] ["m.php"] :=
    fun content => findsAgain_storedTree (by decide) (by decide) (by cbv)
  have hdirectory : ∀ content, (storedTree "m.php" content).footprint .target
      ((storedTree "m.php" content).absolute (Path.parent "m.php")).toText = [[], []] := by
    intro content
    cbv
  have hfiles' : ∀ content, (sourceFiles (storedTree "m.php" content) {} ".").outcome =
      .ok ["a.php", "m.php"] := by
    intro content
    cbv
  have hread : ∀ content, (storedTree "m.php" content).read "m.php" = .ok content := by
    intro content
    cbv
  have hstore : Artifact.store (classTree []) (Manifest.build [classModule]) "m.php" 70 =
      (storedTree "m.php" classArtifact, .ok ()) := by cbv
  obtain ⟨hstored, hfirst⟩ := holdsFile_classTree.1.storeWith rfl hstore
  obtain ⟨houtcome, -, bytes, hbefore, hafter⟩ := @storeWith_again List.range List.range _ _ _ _ _ _ _ _
    ⟨hstored, hfirst⟩ (by decide) ⟨by decide, by decide⟩ hroot (hleads _) hown (hagain _)
    (by rw [hdirectory]; decide)
  obtain rfl := Except.ok.inj ((hread _).symm.trans hbefore)
  exact ⟨_, hfirst, hfiles' _, houtcome, hafter⟩

/-- A second run may fail even where nothing below the root leads through the target: the target itself goes through
the link that the artifact has replaced. -/
theorem not_storeWith_again_link : ∃ after stored,
    (storeWith List.range (classTree [("d", .link ".")]) {} "." (some "d/d")).1 = after ∧
      (storeWith List.range (classTree [("d", .link ".")]) {} "." (some "d/d")).2.outcome = .ok stored ∧
      (classTree [("d", .link ".")]).LeadsTo .itself (Path.toText "d/d") ["d"] ∧
      (sourceFiles (classTree [("d", .link ".")]) {} ".").outcome = .ok ["a.php"] ∧
      FindsAgain (classTree [("d", .link ".")]) after "." [] ["d"] ∧
      (storeWith List.range after {} "." (some "d/d")).2.outcome =
        .error (.artifact "d/d" (.unwritable (.fault .exists ["d"]))) := by
  have hagain : ∀ content, FindsAgain (classTree [("d", .link ".")]) (storedTree "d" content) "." [] ["d"] :=
    fun content => findsAgain_storedTree (by decide) (by decide) (by cbv)
  have hholds : ∀ content, HoldsFile (storedTree "d" content) "." "a.php" classText :=
    fun content => ⟨by cbv, by cbv, by cbv⟩
  have hfail : ∀ content, (Artifact.store (storedTree "d" content) (Manifest.build [classModule]) "d/d" 70).2 =
      .error (.artifact "d/d" (.unwritable (.fault .exists ["d"]))) := by
    intro content
    cbv
  have hleads : (classTree [("d", .link ".")]).LeadsTo .itself (Path.toText "d/d") ["d"] :=
    ⟨.entry ["d"] (.link "."), by cbv, rfl⟩
  obtain ⟨hstored, hfirst⟩ := storeWith_linkedTree
  refine ⟨_, _, hstored, hfirst, hleads, holdsFile_classTree.2.sourceFiles, hagain _, ?_⟩
  have htarget : targetOf {} "." (some "d/d") = "d/d" := rfl
  rw [outcome_storeWith, (hholds _).walkWith declaredModule?_classText, htarget]
  simp only [Except.bind, hfail, Except.map]

end ModuleCatalog.Generation
