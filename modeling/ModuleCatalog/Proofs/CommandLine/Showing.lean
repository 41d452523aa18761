import ModuleCatalog.CommandLine.Run
import ModuleCatalog.Proofs.Artifact.Writable
import ModuleCatalog.Proofs.CommandLine.Parsing

/-!
# Showing a stored manifest

The arguments of `show` may come in any order, and what they give may be any text; only two dashes give nothing. A
manifest that has been stored is shown as a JSON document from which all of it is read back, although the document is
written in ASCII: what has been stored holds no surrogate, so the pairs of escapes are read as the characters they stand
for. A name that the manifest does not have is refused.
-/

namespace ModuleCatalog.CommandLine

/-! ## The arguments -/

/-- What an option is given by the text behind an equals sign: two dashes are nothing. -/
def Given.ofText (written : Text) : Given Text := if written = "--" then .nothing else .value written

/-- The arguments that ask for a JSON document of what is stored at a path, of all of it or of one name. -/
def showArguments (path : Text) : Option Text → List Text
  | none => ["--artifact=" ++ path, "--json"]
  | some category => ["--artifact=" ++ path, "--json", "--category=" ++ category]

/-- What an argument sets that gives a text. -/
def givenValue (written : Text) : Value := if written = "--" then .nothing else .text written

/-- What these arguments set. -/
def showEntries (path : Text) : Option Text → List (Text × Value)
  | none => [("artifact", givenValue path), ("json", .on)]
  | some category => [("artifact", givenValue path), ("json", .on), ("category", givenValue category)]

section Arguments

variable {path : Text} {category : Option Text} {arguments : List Text}

theorem hasProperNames_showGrammar : showGrammar.HasProperNames where
  dashed := by decide
  ne_separator := by decide
  no_equals := by decide

theorem forall₂_sets_show (path : Text) (category : Option Text) :
    List.Forall₂ showGrammar.Sets (showArguments path category) (showEntries path category) := by
  have hgiven : ∀ written, valueOf? .text written = some (givenValue written) := by
    intro written
    rw [valueOf?, givenValue]
    split <;> rfl
  have hvalue : ∀ (key name written : Text), showGrammar.option? name = some ⟨key, [name], .text⟩ →
      showGrammar.Sets (name ++ .scalar '=' :: written) (key, givenValue written) :=
    fun key name written hname => .value hname rfl (hgiven written)
  have hartifact : showGrammar.Sets ("--artifact=" ++ path) ("artifact", givenValue path) :=
    hvalue "artifact" "--artifact" path (by decide)
  have hjson : showGrammar.Sets "--json" ("json", .on) :=
    .switch (o := ⟨"json", ["--json"], .switch⟩) (by decide) rfl
  have hcategory : ∀ name, showGrammar.Sets ("--category=" ++ name) ("category", givenValue name) :=
    fun name => hvalue "category" "--category" name (by decide)
  cases category with
  | none => exact .cons hartifact (.cons hjson .nil)
  | some name => exact .cons hartifact (.cons hjson (.cons (hcategory name) .nil))

/-- The program itself does not know the options of the command, and leaves them to it. -/
theorem interpret_showArguments {argument : Text} (h : argument ∈ showArguments path category) :
    ∃ reading, mainGrammar.interpret argument = .ok reading := by
  have hforeign : ∀ beginning ∈ (["--artifact", "--json", "--category"] : List Text), isLongName beginning ∧
      .scalar '=' ∉ beginning ∧ ∀ name ∈ Assoc.keys mainGrammar.names, Text.startsWith name beginning = false := by
    decide
  have hbegins : ∃ beginning ∈ (["--artifact", "--json", "--category"] : List Text),
      argument = beginning ∨ ∃ value, argument = beginning ++ .scalar '=' :: value := by
    cases category with
    | none =>
      simp only [showArguments, List.mem_cons, List.not_mem_nil, or_false] at h
      rcases h with rfl | rfl
      · exact ⟨"--artifact", by decide, .inr ⟨path, rfl⟩⟩
      · exact ⟨"--json", by decide, .inl rfl⟩
    | some name =>
      simp only [showArguments, List.mem_cons, List.not_mem_nil, or_false] at h
      rcases h with rfl | rfl | rfl
      · exact ⟨"--artifact", by decide, .inr ⟨path, rfl⟩⟩
      · exact ⟨"--json", by decide, .inl rfl⟩
      · exact ⟨"--category", by decide, .inr ⟨name, rfl⟩⟩
  obtain ⟨beginning, hmem, hargument⟩ := hbegins
  obtain ⟨hlong, hequals, hnames⟩ := hforeign beginning hmem
  exact interpret_of_foreign hargument hlong hequals hnames

theorem text?_of_get? {settings : Settings} {key written : Text}
    (h : Assoc.get? key settings = some (givenValue written)) : settings.text? key = some (.ofText written) := by
  rw [Settings.text?, h, givenValue, Given.ofText]
  by_cases hseparator : written = "--"
  · rw [if_pos hseparator, if_pos hseparator]
  · rw [if_neg hseparator, if_neg hseparator]

/-- The arguments are read in any order as what they ask for. -/
theorem parse_show (h : arguments.Perm (showArguments path category)) : parse ("show" :: arguments) =
    .ok ⟨false, false, .show (.ofText path) (category.map .ofText) true⟩ := by
  obtain ⟨entries, hsets, hperm⟩ := List.perm_comp_forall₂ h (forall₂_sets_show path category)
  have houter : mainGrammar.parse ("show" :: arguments) = .ok ⟨[], some ("show", arguments), [], false⟩ :=
    parse_command rfl (by decide) (by decide) fun argument hmem => interpret_showArguments (h.mem_iff.1 hmem)
  have hinner := parse_of_sets hasProperNames_showGrammar rfl hsets
  have hnodup : (Assoc.keys (showEntries path category)).Nodup := by
    cases category with
    | none => exact (by decide : (["artifact", "json"] : List Text).Nodup)
    | some name => exact (by decide : (["artifact", "json", "category"] : List Text).Nodup)
  have hget := Assoc.get?_ofEntries_of_perm hnodup hperm
  have hartifact : Settings.text? (Assoc.ofEntries entries) "artifact" = some (.ofText path) := by
    apply text?_of_get?
    rw [hget]
    cases category <;> rfl
  have hcategory : Settings.text? (Assoc.ofEntries entries) "category" = category.map .ofText := by
    cases category with
    | none =>
      rw [Settings.text?, hget]
      rfl
    | some name =>
      apply text?_of_get?
      rw [hget]
      rfl
  have hjson : Settings.isOn (Assoc.ofEntries entries) "json" = true := by
    rw [Settings.isOn, hget]
    cases category <;> rfl
  have hverbose : Settings.isOn (Assoc.ofEntries entries) "verbose" = false := by
    rw [Settings.isOn, hget]
    cases category <;> rfl
  have hcommand : commandOf "show" = (showGrammar, fun s =>
      .show ((s.text? "artifact").getD (.value defaultArtifact)) (s.text? "category") (s.isOn "json")) := rfl
  simp only [parse, houter, hinner, hcommand, hartifact, hcategory, hjson, hverbose, bind, Except.bind,
    Option.getD_some, List.append_nil]
  rfl

end Arguments

/-! ## The document -/

section Document

variable {entries : List (Text × List Module)}

theorem isPlain_entriesJson (hnodup : (Assoc.keys entries).Nodup) : (entriesJson entries).IsPlain .unicode := by
  constructor
  · induction entries with
    | nil => trivial
    | cons entry entries ih =>
      rw [Assoc.keys, List.map_cons, List.nodup_cons] at hnodup
      exact ⟨Json.isReadable_unicode _, Json.arePlain_map fun found _ => found.isPlain_toJson, ih hnodup.2⟩
  · rw [Assoc.keys, List.map_map]
    exact hnodup

theorem allStrings_entriesJson_iff {q : Text → Prop} (hq : ∀ t : Text, t ⊆ Json.tokenCharacters → q t) :
    (entriesJson entries).AllStrings q ↔
      ∀ entry ∈ entries, q entry.1 ∧ ∀ found ∈ entry.2, ∀ piece ∈ found.texts, q piece := by
  simp only [entriesJson, Json.AllStrings, Json.allMembers_map_iff, Json.allItems_map_iff,
    Module.allStrings_toJson_iff hq]

/-- A document of names and modules without surrogates is read back, although it is written in ASCII. -/
theorem parse_entriesJson (hnodup : (Assoc.keys entries).Nodup)
    (h : ∀ entry ∈ entries, entry.1.isUnicode ∧ ∀ found ∈ entry.2, ∀ piece ∈ found.texts, piece.isUnicode) :
    Json.parse ((entriesJson entries).indented .ascii ++ "\n") = .ok (entriesJson entries) := by
  have htoken : ∀ t : Text, t ⊆ Json.tokenCharacters → Json.IsReadable .ascii t := by
    intro t ht _
    have hnone : ∀ c ∈ Json.tokenCharacters, c.isSurrogate = false := by decide
    exact Text.isUnicode_iff.2 fun c hc => hnone c (ht hc)
  have hstrings : (entriesJson entries).AllStrings (Json.IsReadable .ascii) :=
    (allStrings_entriesJson_iff htoken).2 fun entry hentry =>
      ⟨fun _ => (h entry hentry).1, fun found hfound piece hpiece _ => (h entry hentry).2 found hfound piece hpiece⟩
  apply Json.parse_written .lines .ascii _ _ ((isPlain_entriesJson hnodup).of_allStrings _ hstrings)
  decide

end Document

/-! ## What is shown -/

section Shown

variable {m restored : Manifest} {category : Option Text}

/-- Isomorphic manifests show the same. -/
theorem selected?_congr (h : m.Isomorphic restored) : selected? m category = selected? restored category := by
  cases category with
  | none => simp only [selected?, h.names_eq, h.members_eq]
  | some name =>
    have hcontains : m.contains name = restored.contains name := by
      rw [Bool.eq_iff_iff, Manifest.contains_iff, Manifest.contains_iff, h.names_eq]
    simp only [selected?, hcontains, h.members_eq]

/-- What is shown is names of the manifest, each once and with its members. -/
theorem selected?_spec {entries : List (Text × List Module)} (h : selected? m category = some entries) :
    (Assoc.keys entries).Nodup ∧ ∀ entry ∈ entries, entry.1 ∈ m.names ∧ entry.2 = m.members entry.1 := by
  cases category with
  | none =>
    obtain rfl := Option.some.inj h
    refine ⟨?_, List.forall_mem_map.2 fun name hname => ⟨hname, rfl⟩⟩
    rw [Assoc.keys, List.map_map]
    exact (List.map_id m.names).symm ▸ m.nodup_names
  | some name =>
    rw [selected?] at h
    split at h
    · next hcontains =>
      obtain rfl := Option.some.inj h
      exact ⟨List.nodup_singleton name, List.forall_mem_singleton.2 ⟨Manifest.contains_iff.1 hcontains, rfl⟩⟩
    · cases h

/-- What is shown of a manifest without surrogates is read back from the document. -/
theorem parse_of_selected? (hm : m.IsUnicode) {entries : List (Text × List Module)}
    (h : selected? m category = some entries) :
    Json.parse ((entriesJson entries).indented .ascii ++ "\n") = .ok (entriesJson entries) := by
  obtain ⟨hnodup, hentries⟩ := selected?_spec h
  apply parse_entriesJson hnodup
  intro entry hentry
  obtain ⟨hname, hmembers⟩ := hentries entry hentry
  rw [hmembers]
  exact ⟨hm.1 entry.1 hname, hm.members⟩

theorem ofText_of_ne {written : Text} (h : written ≠ "--") : Given.ofText written = .value written := if_neg h

theorem mapM_givenName (hcategory : ∀ name ∈ category, name ≠ "--") :
    (category.map Given.ofText).mapM givenName = .ok category := by
  cases category with
  | none => rfl
  | some name =>
    rw [Option.map_some, ofText_of_ne (hcategory name rfl)]
    rfl

section Loaded

variable {fs : FileSystem} {path : Text} {arguments : List Text}
  (harguments : arguments.Perm (showArguments path category)) (hpath : path ≠ "--")

include harguments hpath

/-- What a loaded manifest has is shown as a document. -/
theorem run_show_of_selected (hcategory : ∀ name ∈ category, name ≠ "--")
    (hload : Artifact.load fs (Path.parse path) = .ok m) {entries : List (Text × List Module)}
    (hselected : selected? m category = some entries) : run fs ("show" :: arguments) =
      (fs, .done ((entriesJson entries).indented .ascii ++ "\n") []) := by
  simp only [run, parse_show harguments, runInvocation, runShow, ofText_of_ne hpath, givenPath, hload,
    mapM_givenName hcategory, hselected, bind, Except.bind, if_true]

/-- What a loaded manifest does not have is refused. -/
theorem run_show_of_unknown (hcategory : ∀ name ∈ category, name ≠ "--")
    (hload : Artifact.load fs (Path.parse path) = .ok m) (hselected : selected? m category = none) :
    run fs ("show" :: arguments) = (fs, .refused [] ("Unknown category: " ++ category.getD [])) := by
  simp only [run, parse_show harguments, runInvocation, runShow, ofText_of_ne hpath, givenPath, hload,
    mapM_givenName hcategory, hselected, bind, Except.bind]

theorem run_show_of_load_error {failure : Failure} (hload : Artifact.load fs (Path.parse path) = .error failure) :
    run fs ("show" :: arguments) = (fs, .ofFailure [] [] failure) := by
  simp only [run, parse_show harguments, runInvocation, runShow, ofText_of_ne hpath, givenPath, hload, bind,
    Except.bind]

end Loaded

/-- Two dashes are no path. -/
theorem run_show_without_path {fs : FileSystem} {arguments : List Text}
    (harguments : arguments.Perm (showArguments "--" category)) :
    run fs ("show" :: arguments) = (fs, ⟨[], [], .failed (.absent .path)⟩) := by
  have hgiven : Given.ofText "--" = .nothing := if_pos rfl
  simp only [run, parse_show harguments, runInvocation, runShow, hgiven, givenPath, bind, Except.bind]
  rfl

/-- Two dashes are no name. -/
theorem run_show_without_name {fs : FileSystem} {path : Text} {arguments : List Text}
    (harguments : arguments.Perm (showArguments path (some "--"))) (hpath : path ≠ "--")
    (hload : Artifact.load fs (Path.parse path) = .ok m) :
    run fs ("show" :: arguments) = (fs, ⟨[], [], .failed (.absent .name)⟩) := by
  simp only [run, parse_show harguments, runInvocation, runShow, ofText_of_ne hpath, givenPath, hload, bind,
    Except.bind]
  rfl

/-- Of a stored manifest the whole is shown as a document that holds the names in order, each with its members; under
one of its names that name alone is shown, and any other name is refused. So it is unless the path leads on through a
link that the artifact has replaced; then nothing is shown. -/
theorem run_show_of_store {fs after : FileSystem} {path : Text} {chunkSize : Int} (hpath : path ≠ "--")
    (h : Artifact.store fs m (Path.parse path) chunkSize = (after, .ok ())) :
    ∃ before location, FileSystem.AddsParents fs before (Path.parse path).parent ∧
      before.LeadsTo .itself (Path.parse path).toText location ∧
      (before.LeadsAround (Path.parse path) location →
        (∀ arguments, arguments.Perm (showArguments path none) →
          ∃ out, run after ("show" :: arguments) = (after, ⟨out, [], .exit 0⟩) ∧
            Json.parse out = .ok (.object (m.names.map fun name =>
              (name, .array ((m.members name).map Module.toJson))))) ∧
        ∀ category : Text, category ≠ "--" → ∀ arguments, arguments.Perm (showArguments path (some category)) →
          (category ∈ m.names → ∃ out, run after ("show" :: arguments) = (after, ⟨out, [], .exit 0⟩) ∧
            Json.parse out = .ok (.object [(category, .array ((m.members category).map Module.toJson))])) ∧
          (category ∉ m.names → run after ("show" :: arguments) =
            (after, ⟨[], "Unknown category: " ++ category ++ "\n", .exit 1⟩))) ∧
      (¬ before.LeadsAround (Path.parse path) location → ∀ category arguments,
        arguments.Perm (showArguments path category) → run after ("show" :: arguments) = (after, ⟨[],
          (Failure.artifact (Path.parse path) (.unreadable (.fault .notDirectory [(Path.parse path).toText]))).message ++
            "\n", .exit 1⟩)) ∧
      ((∀ link, fs.top.look location ≠ some (.link link)) → before.LeadsAround (Path.parse path) location) := by
  obtain ⟨before, location, hadds, hleads, haround, hthrough, hlink⟩ := Artifact.load_of_store h
  have hunicode := Artifact.isUnicode_of_store h
  refine ⟨before, location, hadds, hleads, fun hleadsAround => ?_, fun hnot category arguments harguments => ?_,
    fun hnone => hlink (hadds.look_ne_link hnone)⟩
  · obtain ⟨restored, hload, hisomorphic⟩ := haround hleadsAround
    refine ⟨fun arguments harguments => ?_, fun category hcategory arguments harguments => ?_⟩
    · have hall : selected? m none = some (m.names.map fun name => (name, m.members name)) := rfl
      have hshown : selected? restored none = some (m.names.map fun name => (name, m.members name)) :=
        (selected?_congr hisomorphic).symm.trans hall
      refine ⟨_, run_show_of_selected harguments hpath (fun _ hnone => nomatch hnone) hload hshown, ?_⟩
      rw [parse_of_selected? hunicode hall, entriesJson, List.map_map]
      rfl
    · have hgiven : ∀ name ∈ some category, name ≠ "--" := fun _ hsome => Option.some.inj hsome ▸ hcategory
      refine ⟨fun hname => ?_, fun hname => ?_⟩
      · have hone : selected? m (some category) = some [(category, m.members category)] :=
          if_pos (Manifest.contains_iff.2 hname)
        have hshown : selected? restored (some category) = some [(category, m.members category)] :=
          (selected?_congr hisomorphic).symm.trans hone
        refine ⟨_, run_show_of_selected harguments hpath hgiven hload hshown, ?_⟩
        rw [parse_of_selected? hunicode hone]
        rfl
      · have hnone : selected? m (some category) = none := if_neg (mt Manifest.contains_iff.1 hname)
        have hunknown : selected? restored (some category) = none := (selected?_congr hisomorphic).symm.trans hnone
        exact run_show_of_unknown harguments hpath hgiven hload hunknown
  · rw [run_show_of_load_error harguments hpath (hthrough hnot)]
    rfl

end Shown

/-- A module twice under the empty name, and once under a name that ASCII does not hold. -/
def unnamed : Manifest := ⟨[⟨"A", "B", []⟩], [([], [0, 0]), ("𝒮", [0])], by decide⟩

/-- The empty name is shown like any other. -/
theorem run_show_of_store_unnamed : (Text.ofString "m" ≠ "--") ∧
    ∃ after, Artifact.store Artifact.emptyTree unnamed (Path.parse "m") 3 = (after, .ok ()) ∧
      (∃ out, run after ["show", "--json", "--artifact=m"] = (after, ⟨out, [], .exit 0⟩) ∧
        Json.parse out = .ok (.object [([], .array [Module.toJson ⟨"A", "B", []⟩, Module.toJson ⟨"A", "B", []⟩]),
          ("𝒮", .array [Module.toJson ⟨"A", "B", []⟩])])) ∧
      (∃ out, run after ["show", "--artifact=m", "--json", "--category="] = (after, ⟨out, [], .exit 0⟩) ∧
        Json.parse out = .ok (.object
          [([], .array [Module.toJson ⟨"A", "B", []⟩, Module.toJson ⟨"A", "B", []⟩])])) ∧
      run after ["show", "--category=S", "--json", "--artifact=m"] =
        (after, ⟨[], "Unknown category: S\n", .exit 1⟩) := by
  have hpath : Text.ofString "m" ≠ "--" := by decide
  have hwritable : Artifact.IsWritable Artifact.emptyTree "m" := Artifact.admits_iff.1 (by cbv)
  have hunicode : unnamed.IsUnicode := ⟨by decide, by decide⟩
  obtain ⟨after, hstore⟩ := Artifact.exists_store_of_isUnicode hwritable (by decide : (1 : Int) ≤ 3) hunicode
  obtain ⟨before, location, -, -, hshown, -, haround⟩ := run_show_of_store hpath hstore
  obtain ⟨hall, hone⟩ := hshown (haround (Artifact.look_emptyTree_ne_link location))
  refine ⟨hpath, _, hstore, ?_, ?_, ?_⟩
  · exact hall _ (List.Perm.swap ..)
  · exact (hone [] (by decide) _ (List.Perm.refl _)).1 (by decide)
  · exact (hone "S" (by decide) _ (by decide)).2 (by decide)

/-- What has been stored is not always shown: not if the path goes through a link that the artifact has replaced, and
neither path nor name may be two dashes, which an option does not take for a value. -/
theorem not_run_show :
    ((Artifact.store Artifact.selfLink default "d/d" 70).2 = .ok () ∧
      (run (Artifact.store Artifact.selfLink default "d/d" 70).1 ["show", "--artifact=d/d", "--json"]).2 =
        ⟨[], "Failed to read artifact: [Errno 20] Not a directory: 'd/d' (d/d)\n", .exit 1⟩) ∧
    ((Artifact.store Artifact.emptyTree default "--" 70).2 = .ok () ∧
      (run (Artifact.store Artifact.emptyTree default "--" 70).1 ["show", "--artifact=--", "--json"]).2 =
        ⟨[], [], .failed (.absent .path)⟩) ∧
    ((Artifact.store Artifact.emptyTree (Artifact.bucketOf "--") "m" 70).2 = .ok () ∧
      (run (Artifact.store Artifact.emptyTree (Artifact.bucketOf "--") "m" 70).1
        ["show", "--artifact=m", "--json", "--category=--"]).2 = ⟨[], [], .failed (.absent .name)⟩) := by
  have hlinked : (Artifact.store Artifact.selfLink default "d/d" 70).2 = .ok () := by cbv
  have hthrough : Artifact.load (Artifact.store Artifact.selfLink default "d/d" 70).1 (Path.parse "d/d") =
      .error (.artifact "d/d" (.unreadable (.fault .notDirectory ["d/d"]))) := by cbv
  have hsize : (1 : Int) ≤ 70 := by decide
  have hdefault : (default : Manifest).IsUnicode := ⟨by decide, by decide⟩
  have hnamed : (Artifact.bucketOf "--").IsUnicode := Artifact.isUnicode_bucketOf_iff.2 (by decide)
  obtain ⟨_, hdashes⟩ := Artifact.exists_store_of_isUnicode (Artifact.admits_iff.1
    (by cbv : Artifact.admits Artifact.emptyTree "--" = true)) hsize hdefault
  obtain ⟨_, hbucket⟩ := Artifact.exists_store_of_isUnicode (Artifact.admits_iff.1
    (by cbv : Artifact.admits Artifact.emptyTree "m" = true)) hsize hnamed
  obtain ⟨before, location, hadds, -, haround, -, hlink⟩ := Artifact.load_of_store hbucket
  have hnone := hadds.look_ne_link (Artifact.look_emptyTree_ne_link location)
  obtain ⟨restored, hload, -⟩ := haround (hlink hnone)
  refine ⟨⟨hlinked, ?_⟩, ⟨by rw [hdashes], ?_⟩, by rw [hbucket], ?_⟩
  · exact congrArg Prod.snd (run_show_of_load_error (List.Perm.refl (showArguments "d/d" none)) (by decide) hthrough)
  · exact congrArg Prod.snd (run_show_without_path (List.Perm.refl (showArguments "--" none)))
  · exact congrArg Prod.snd (run_show_without_name (List.Perm.refl (showArguments "m" (some "--"))) (by decide)
      (by rw [hbucket]; exact hload))

end ModuleCatalog.CommandLine
