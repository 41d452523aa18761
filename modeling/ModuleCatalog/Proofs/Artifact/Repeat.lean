import ModuleCatalog.Proofs.Artifact.Atomicity
import ModuleCatalog.Proofs.FileSystem.Children
import ModuleCatalog.Proofs.FileSystem.Distinct
import ModuleCatalog.Proofs.FileSystem.Footprint

/-!
# Storing once more

A call that succeeds is a sequence of requests all of which are answered. After it the directories are there, a
name for the temporary file is free again, and the artifact is in place. So the same call made once more
succeeds, too, and leaves everything as it was, unless a path that it uses went through a link which the
artifact has replaced.
-/

namespace ModuleCatalog.Artifact

open FileSystem

namespace Call

/-! ## Calls that succeed -/

theorem complete_of_none {c : Call} (h : c.phase.outcome? = none) (fs : FileSystem) :
    c.complete [] fs = (c.answer fs).1.complete [] (c.answer fs).2 := by
  rw [complete]
  split
  · next outcome houtcome => cases h.symm.trans houtcome
  · rfl

theorem complete_finished {c : Call} {outcome : Except Failure Unit} (h : c.phase = .finished outcome)
    (fs : FileSystem) : c.complete [] fs = (fs, outcome) := by
  have houtcome : c.phase.outcome? = some outcome := by rw [h]; rfl
  rw [complete]
  split
  · next other hother => rw [Option.some.inj (hother.symm.trans houtcome)]
  · next hnone => cases hnone.symm.trans houtcome

section Phases

variable {c : Call} {fs after : FileSystem}

theorem complete_cleaning {temporary : Path} {failure : Failure} (h : c.phase = .cleaning temporary failure) :
    c.complete [] fs ≠ (after, .ok ()) := by
  have hnone : c.phase.outcome? = none := by rw [h]; rfl
  rw [complete_of_none hnone, answer, h]
  dsimp only
  rw [complete_finished rfl]
  simp

/-- What follows a request on a temporary file. -/
theorem complete_proceed {temporary : Path} {next : Phase} {result : Except Failure FileSystem} :
    (c.proceed temporary next fs result).1.complete [] (c.proceed temporary next fs result).2 =
        (after, .ok ()) ↔
      ∃ fs', result = .ok fs' ∧ Call.complete { c with phase := next } [] fs' = (after, .ok ()) := by
  cases result with
  | ok fs' => simp [proceed]
  | error failure => simpa [proceed] using complete_cleaning rfl

theorem complete_preparing {target : Path} {text : Text} :
    Call.complete ⟨target, text, .preparing⟩ [] fs = (after, .ok ()) ↔
      ∃ before, fs.ensureDirectories target.parent = (before, .ok ()) ∧
        Call.complete ⟨target, text, .creating⟩ [] before = (after, .ok ()) := by
  rw [complete_of_none rfl, answer]
  dsimp only
  cases hmake : fs.ensureDirectories target.parent with
  | mk before result =>
    cases result with
    | ok => simp
    | error cause =>
      dsimp only
      rw [complete_finished rfl]
      simp

theorem complete_creating {target : Path} {text : Text} :
    Call.complete ⟨target, text, .creating⟩ [] fs = (after, .ok ()) ↔
      ∃ temporary empty, fs.createTemporary target = .ok (temporary, empty) ∧
        Call.complete ⟨target, text, .writing temporary⟩ [] empty = (after, .ok ()) := by
  rw [complete_of_none rfl, answer]
  dsimp only
  cases hcreate : fs.createTemporary target with
  | ok result =>
    obtain ⟨temporary, empty⟩ := result
    simp
  | error cause =>
    dsimp only
    rw [complete_finished rfl]
    simp

theorem complete_replacing {target temporary : Path} {text : Text} :
    Call.complete ⟨target, text, .replacing temporary⟩ [] fs = (after, .ok ()) ↔
      fs.replace temporary target = .ok after := by
  rw [complete_of_none rfl, answer]
  dsimp only
  rw [complete_proceed]
  simp [complete_finished, mapError_eq_ok_iff]

theorem complete_permitting {target temporary : Path} {text : Text} :
    Call.complete ⟨target, text, .permitting temporary⟩ [] fs = (after, .ok ()) ↔
      ∃ permitted, fs.permit temporary mode = .ok permitted ∧ permitted.replace temporary target = .ok after := by
  rw [complete_of_none rfl, answer]
  dsimp only
  rw [complete_proceed]
  simp [complete_replacing, mapError_eq_ok_iff]

theorem complete_writing {target temporary : Path} {text : Text} :
    Call.complete ⟨target, text, .writing temporary⟩ [] fs = (after, .ok ()) ↔
      ∃ bytes written permitted, Utf8.encode text = .ok bytes ∧ fs.write temporary bytes = .ok written ∧
        written.permit temporary mode = .ok permitted ∧ permitted.replace temporary target = .ok after := by
  have hsyncing : ∀ fs : FileSystem, Call.complete ⟨target, text, .syncing temporary⟩ [] fs =
      Call.complete ⟨target, text, .permitting temporary⟩ [] fs :=
    fun fs => complete_of_none rfl fs
  rw [complete_of_none rfl, answer]
  dsimp only
  rw [complete_proceed]
  simp only [hsyncing, complete_permitting, writeText, bind_eq_ok_iff, mapError_eq_ok_iff]
  constructor
  · rintro ⟨written, ⟨bytes, hencode, hwrite⟩, permitted, hpermit, hreplace⟩
    exact ⟨bytes, written, permitted, hencode, hwrite, hpermit, hreplace⟩
  · rintro ⟨bytes, written, permitted, hencode, hwrite, hpermit, hreplace⟩
    exact ⟨written, ⟨bytes, hencode, hwrite⟩, permitted, hpermit, hreplace⟩

end Phases

end Call

/-- The requests of a call that succeeds, one after the other. -/
theorem store_eq_ok_iff {fs after : FileSystem} {m : Manifest} {target : Path} {chunkSize : Int} :
    store fs m target chunkSize = (after, .ok ()) ↔ ∃ text before temporary empty bytes written permitted,
      encode m chunkSize = .ok text ∧ fs.ensureDirectories target.parent = (before, .ok ()) ∧
        before.createTemporary target = .ok (temporary, empty) ∧ Utf8.encode text = .ok bytes ∧
        empty.write temporary bytes = .ok written ∧ written.permit temporary mode = .ok permitted ∧
        permitted.replace temporary target = .ok after := by
  unfold store storeWith Call.start
  cases hencode : encode m chunkSize with
  | error problem => simp
  | ok text =>
    simp only [Call.complete_preparing, Call.complete_creating, Call.complete_writing]
    constructor
    · rintro ⟨before, hmake, temporary, empty, hcreate, bytes, written, permitted, hrest⟩
      exact ⟨text, before, temporary, empty, bytes, written, permitted, rfl, hmake, hcreate, hrest⟩
    · rintro ⟨_, before, temporary, empty, bytes, written, permitted, htext, hmake, hcreate, hrest⟩
      obtain rfl := Except.ok.inj htext
      exact ⟨before, hmake, temporary, empty, hcreate, bytes, written, permitted, hrest⟩

/-! ## Paths that avoid what was replaced -/

section Again

variable {before after : FileSystem} {target : Path} {location : List Text} {content : Bytes} {mode : Nat}

theorem look_after (h : Replaces before target location content mode after) {path : Text} {goal : Goal}
    (havoids : location ∉ after.footprint goal path) :
    ∀ other ∈ after.footprint goal path, after.top.look other = before.top.look other :=
  fun other hother => h.others other fun heq => havoids (heq ▸ hother)

/-- A directory that was there before is still there if its path avoids the replaced place. -/
theorem lookup_directory (h : Replaces before target location content mode after) {path : Text}
    (havoids : location ∉ after.footprint .target path) {here : List Text} {entries : List (Text × Node)}
    (hbefore : before.lookup .target path = .ok (.entry here (.directory entries))) :
    ∃ entries, after.lookup .target path = .ok (.entry here (.directory entries)) :=
  lookup_directory_of_shallow (lookup_congr h.working.symm (look_after h havoids)).symm hbefore

theorem child_parent {path : Path} (h : path.name ≠ []) : path.parent.child path.name = path := by
  have hparts : path.parts ≠ [] := by
    rintro hnil
    rw [Path.name, hnil] at h
    exact h rfl
  have hlast : path.parts.dropLast ++ [path.name] = path.parts := by
    rw [Path.name, List.getLast?_eq_some_getLast hparts]
    exact List.dropLast_append_getLast hparts
  rw [Path.child, Path.parent, hlast]

theorem exists_encodeRaw {path : Text} (h : checkText path = .ok ()) :
    ∃ bytes, Utf8.encodeRaw path = .ok bytes := by
  simp only [checkText, bind_eq_ok_iff, mapError_eq_ok_iff] at h
  obtain ⟨bytes, hencode, -⟩ := h
  exact ⟨bytes, hencode⟩

theorem toText_ne_nil {fs : FileSystem} {path : Path} {goal : Goal} {p : Place}
    (h : fs.lookup goal path.toText = .ok p) : path.toText ≠ [] := by
  intro hnil
  rw [hnil] at h
  exact (lookup_eq_ok_iff.1 h).1 rfl

/-- The directory of the target is still there if the target leads somewhere. -/
theorem isDirectory_parent (hname : IsEntryName target.name)
    (hparent : before.isDirectory target.parent = .ok true) (hchecked : checkText target.toText = .ok ())
    (hleads : after.LeadsTo .itself target.toText location) : after.isDirectory target.parent = .ok true := by
  obtain ⟨_, _, hlocate⟩ := isDirectory_eq_true_iff.1 hparent
  obtain ⟨hparentChecked, hlookup⟩ := locate_eq_ok_iff.1 hlocate
  obtain ⟨bytes, hencode⟩ := exists_encodeRaw hchecked
  obtain ⟨place, hplace, -⟩ := hleads
  rw [← child_parent hname.ne_nil] at hencode hplace
  obtain ⟨-, here, entries, _, hafter, -⟩ :=
    (lookup_child_eq_ok_iff hname (toText_ne_nil hlookup) hencode).1 hplace
  exact isDirectory_eq_true_iff.2 ⟨here, entries, locate_eq_ok_iff.2 ⟨hparentChecked, hafter⟩⟩

/-! ## Temporary files -/

theorem isEntryName_temporaryName (hname : IsEntryName target.name) (n : Nat) :
    IsEntryName (temporaryName target n) := by
  refine ⟨List.cons_ne_nil (CodePoint.scalar '.') _, ?_⟩
  simp only [temporaryName, List.mem_append, not_or]
  exact ⟨⟨⟨⟨by decide, hname.no_slash⟩, by decide⟩, slash_not_mem_nameOf 8 n⟩, by decide⟩

theorem temporaryName_not_dots (target : Path) (n : Nat) :
    ¬ (Utf8.asRead (temporaryName target n) = [] ∨ Utf8.asRead (temporaryName target n) = "." ∨
      Utf8.asRead (temporaryName target n) = "..") := by
  have hlong : 4 ≤ byteLength (Utf8.asRead (temporaryName target n)) := by
    have htmp : byteLength (Text.ofString ".tmp") = 4 := by decide
    rw [byteLength_asRead, temporaryName, byteLength_append, htmp]
    exact Nat.le_add_left _ _
  rintro (heq | heq | heq)
  · rw [heq] at hlong
    exact absurd hlong (by decide)
  · rw [heq] at hlong
    exact absurd hlong (by decide)
  · rw [heq] at hlong
    exact absurd hlong (by decide)

theorem toText_absolute_ne_nil (fs : FileSystem) (path : Path) : (fs.absolute path).toText ≠ [] := by
  have hroot : (fs.absolute path).root ≠ .relative := by
    simpa [Path.isAbsolute] using isAbsolute_absolute fs path
  rw [Path.toText, if_neg fun hrelative => hroot hrelative.1]
  intro hnil
  have htext := (List.append_eq_nil_iff.1 hnil).1
  cases hcases : (fs.absolute path).root with
  | relative => exact hroot hcases
  | slash =>
    rw [hcases] at htext
    cases htext
  | doubleSlash =>
    rw [hcases] at htext
    cases htext

/-- The path of the temporary file with a number. -/
def temporaryPath (fs : FileSystem) (target : Path) (n : Nat) : Path :=
  (fs.absolute target.parent).child (temporaryName target n)

/-- Some of the names that have been tried were taken, and the last one was free. -/
theorem exists_of_createFrom {fs fs' : FileSystem} {temporary : Path} {tries n : Nat}
    (h : fs.createFrom target tries n = .ok (temporary, fs')) : ∃ count < tries,
      (∀ i ≤ count, ∃ p, fs.locate .itself (temporaryPath fs target (n + i)).toText = .ok p) ∧
      ∃ directory name,
        fs.locate .itself (temporaryPath fs target (n + count)).toText = .ok (.free directory name) := by
  induction tries generalizing n with
  | zero => cases h
  | succ tries ih =>
    simp only [createFrom, bind_eq_ok_iff] at h
    obtain ⟨p, hp, hresult⟩ := h
    cases p with
    | free directory name =>
      refine ⟨0, Nat.succ_pos tries, fun i hi => ⟨.free directory name, ?_⟩, directory, name, hp⟩
      rw [Nat.le_zero.1 hi]
      exact hp
    | entry location node =>
      obtain ⟨count, hcount, htried, directory, name, hfree⟩ := ih hresult
      have hnext : ∀ i, n + 1 + i = n + (i + 1) := fun i => Nat.add_right_comm n 1 i
      refine ⟨count + 1, Nat.succ_lt_succ hcount, fun i hi => ?_, directory, name, hnext count ▸ hfree⟩
      cases i with
      | zero => exact ⟨_, hp⟩
      | succ i => exact hnext i ▸ htried i (Nat.le_of_succ_le_succ hi)

/-- A free name is found if one of those that are tried is free and the others can be looked up. -/
theorem createFrom_of_free {fs : FileSystem} {tries n count : Nat} (hcount : count < tries)
    (htried : ∀ i ≤ count, ∃ p, fs.locate .itself (temporaryPath fs target (n + i)).toText = .ok p)
    (hfree : ∃ directory name,
      fs.locate .itself (temporaryPath fs target (n + count)).toText = .ok (.free directory name)) :
    ∃ temporary fs', fs.createFrom target tries n = .ok (temporary, fs') := by
  induction tries generalizing n count with
  | zero => cases hcount
  | succ tries ih =>
    obtain ⟨p, hp⟩ := htried 0 (Nat.zero_le count)
    simp only [temporaryPath, Nat.add_zero] at hp
    cases p with
    | free directory name =>
      refine ⟨temporaryPath fs target n, fs.put directory name (.file [] 0o600), ?_⟩
      simp only [createFrom, hp, bind, Except.bind, temporaryPath]
    | entry location node =>
      have hstep : fs.createFrom target (tries + 1) n = fs.createFrom target tries (n + 1) := by
        simp only [createFrom, hp, bind, Except.bind]
      rw [hstep]
      cases count with
      | zero =>
        obtain ⟨directory, name, hfree⟩ := hfree
        cases hp.symm.trans hfree
      | succ count =>
        have hnext : ∀ i, n + (i + 1) = n + 1 + i := fun i => (Nat.add_right_comm n 1 i).symm
        apply ih (Nat.lt_of_succ_lt_succ hcount)
        · exact fun i hi => hnext i ▸ htried (i + 1) (Nat.succ_le_succ hi)
        · exact hnext count ▸ hfree

/-- No entry of a directory goes when a file takes a place. -/
theorem length_entries_le (h : Replaces before target location content mode after)
    (hdistinct : before.top.HasDistinctNames) {here : List Text} {entries entries' : List (Text × Node)}
    (hbefore : before.top.at? here = some (.directory entries))
    (hafter : after.top.at? here = some (.directory entries')) : entries.length ≤ entries'.length := by
  have hsubset : Assoc.keys entries ⊆ Assoc.keys entries' := by
    intro name hname
    by_contra hnot
    have hnone := Node.at?_child hafter name
    rw [Assoc.get?_eq_none_iff.2 hnot] at hnone
    have hget : before.top.at? (here ++ [name]) = none := by
      by_cases heq : here ++ [name] = location
      · rw [heq] at hnone
        cases h.at?_after.symm.trans hnone
      · exact at?_eq_none_of_look (h.others _ heq) hnone
    rw [Node.at?_child hbefore, Assoc.get?_eq_none_iff] at hget
    exact hget hname
  have hle := (List.subperm_of_subset (hdistinct here entries hbefore) hsubset).length_le
  rwa [Assoc.keys, Assoc.keys, List.length_map, List.length_map] at hle

theorem entryCount_le (h : Replaces before target location content mode after)
    (hdistinct : before.top.HasDistinctNames) {path : Path} {here : List Text}
    {entries entries' : List (Text × Node)}
    (hbefore : before.lookup .target path.toText = .ok (.entry here (.directory entries)))
    (hafter : after.lookup .target path.toText = .ok (.entry here (.directory entries'))) :
    before.entryCount path ≤ after.entryCount path := by
  have hle := length_entries_le h hdistinct (lookup_entry hbefore) (lookup_entry hafter)
  cases hchecked : checkText path.toText with
  | error cause => simp [entryCount, list, locate, hchecked, bind, Except.bind]
  | ok => simpa [entryCount, list, locate, hchecked, hbefore, hafter, bind, Except.bind, Except.mapError] using hle

/-- The place of a temporary file is never that of the target. -/
theorem temporary_ne_location (h : Replaces before target location content mode after)
    (hname : IsEntryName target.name) (here : List Text) (n : Nat) :
    here ++ [Utf8.asRead (temporaryName target n)] ≠ location := by
  have hlast : lastName (temporaryName target n) = temporaryName target n :=
    afterLast_of_not_mem (isEntryName_temporaryName hname n).no_slash
  have hlonger := byteLength_lastName_temporaryName target n
  rw [hlast, ← byteLength_asRead (temporaryName target n)] at hlonger
  intro heq
  exact not_isBeside_of_leadsTo h.leads h.not_directory ⟨here, _, heq.symm, hlonger⟩

/-- A temporary file can be made again if the path of its directory avoids the replaced place. -/
theorem exists_createTemporary_again (h : Replaces before target location content mode after)
    (hdistinct : before.top.HasDistinctNames) (hname : IsEntryName target.name)
    (havoids : location ∉ after.footprint .target (after.absolute target.parent).toText)
    {temporary : Path} {empty : FileSystem} (hcreate : before.createTemporary target = .ok (temporary, empty)) :
    ∃ temporary empty, after.createTemporary target = .ok (temporary, empty) := by
  have habsolute : before.absolute target.parent = after.absolute target.parent := by
    rw [absolute, absolute, workingPath, workingPath, h.working]
  have htext := toText_absolute_ne_nil after target.parent
  have hentry := isEntryName_temporaryName hname
  obtain ⟨count, hcount, htried, directory, name, hfree⟩ := exists_of_createFrom hcreate
  simp only [temporaryPath, habsolute, locate_eq_ok_iff, Nat.zero_add] at htried hfree
  -- The directory of the temporary file stands where it stood.
  obtain ⟨bytes, hencode⟩ := exists_encodeRaw hfree.1
  obtain ⟨-, here, entries, links, hbefore, hwalk⟩ :=
    (lookup_child_eq_ok_iff (hentry count) htext hencode).1 hfree.2
  obtain ⟨entries', hafter⟩ := lookup_directory h havoids hbefore
  have hdirectory := lookup_entry hafter
  -- So every name that was tried can be looked up again.
  have hagain : ∀ i ≤ count, ∃ p, after.locate .itself (temporaryPath after target (0 + i)).toText = .ok p ∧
      p.location = here ++ [Utf8.asRead (temporaryName target i)] := by
    intro i hi
    obtain ⟨p, hchecked, hp⟩ := htried i hi
    obtain ⟨bytes, hencode⟩ := exists_encodeRaw hchecked
    obtain ⟨hshort, other, _, links, hother, hwalk⟩ := (lookup_child_eq_ok_iff (hentry i) htext hencode).1 hp
    rcases hwalk.isName_or_dots with ⟨hisName, -⟩ | ⟨hdots, -⟩
    · obtain ⟨q, hq, hlocation⟩ := Walk.exists_last 0 hdirectory hisName
      refine ⟨q, ?_, hlocation⟩
      rw [Nat.zero_add]
      exact locate_eq_ok_iff.2 ⟨hchecked, (lookup_child_eq_ok_iff (hentry i) htext hencode).2
        ⟨hshort, here, entries', 0, hafter, hq⟩⟩
    · exact absurd hdots (temporaryName_not_dots target i)
  -- And the one that was free is free again.
  have hnone : after.top.at? (here ++ [Utf8.asRead (temporaryName target count)]) = none := by
    have hplace : directory ++ [name] = here ++ [Utf8.asRead (temporaryName target count)] := by
      rcases hwalk.isName_or_dots with ⟨-, heq⟩ | ⟨hdots, -⟩
      · exact heq
      · exact absurd hdots (temporaryName_not_dots target count)
    apply at?_eq_none_of_look (h.others _ (temporary_ne_location h hname here count)).symm
    rw [← hplace]
    exact (lookup_free hfree.2).2
  have hfree' : ∃ directory name, after.locate .itself (temporaryPath after target (0 + count)).toText =
      .ok (.free directory name) := by
    obtain ⟨p, hp, hlocation⟩ := hagain count le_rfl
    cases p with
    | free directory name => exact ⟨directory, name, hp⟩
    | entry other node =>
      obtain rfl : other = _ := hlocation
      cases hnone.symm.trans (lookup_entry (locate_eq_ok_iff.1 hp).2)
  have hcount' : count < after.entryCount (after.absolute target.parent) + 1 := by
    rw [habsolute] at hcount
    exact Nat.lt_of_lt_of_le hcount (Nat.succ_le_succ (entryCount_le h hdistinct hbefore hafter))
  exact createFrom_of_free hcount' (fun i hi => (hagain i hi).imp fun _ => And.left) hfree'

end Again

/-! ## The call once more -/

/-- What a call that succeeds finds and leaves. -/
theorem exists_replaces_of_store {fs after : FileSystem} {m : Manifest} {target : Path} {chunkSize : Int}
    (h : store fs m target chunkSize = (after, .ok ())) :
    ∃ text bytes before location, encode m chunkSize = .ok text ∧ Utf8.encode text = .ok bytes ∧
      fs.ensureDirectories target.parent = (before, .ok ()) ∧
      (∃ temporary empty, before.createTemporary target = .ok (temporary, empty)) ∧ endsInName target ∧
      Replaces before target location bytes mode after := by
  obtain ⟨text, before, temporary, empty, bytes, written, permitted, hencode, hmake, hcreate, hbytes, hwrite,
    hpermit, hreplace⟩ := store_eq_ok_iff.1 h
  obtain ⟨beside, hempty⟩ := createFrom_eq_ok hcreate
  obtain ⟨_, hwrite', hwritten⟩ := hempty.write bytes
  obtain rfl := Except.ok.inj (hwrite.symm.trans hwrite')
  obtain ⟨_, hpermit', hpermitted⟩ := hwritten.permit mode
  obtain rfl := Except.ok.inj (hpermit.symm.trans hpermit')
  obtain ⟨location, hreplaces⟩ := hpermitted.replace hreplace
  obtain ⟨-, hend, -⟩ := hpermitted.exists_replace_iff.1 ⟨after, hreplace⟩
  exact ⟨text, bytes, before, location, hencode, hbytes, hmake, ⟨temporary, empty, hcreate⟩, hend, hreplaces⟩

theorem hasDistinctNames_of_store {fs after : FileSystem} {m : Manifest} {target : Path} {chunkSize : Int}
    (hdistinct : fs.top.HasDistinctNames) (h : store fs m target chunkSize = (after, .ok ())) :
    after.top.HasDistinctNames := by
  obtain ⟨_, before, _, empty, _, written, permitted, -, hmake, hcreate, -, hwrite, hpermit, hreplace⟩ :=
    store_eq_ok_iff.1 h
  have hbefore : before.top.HasDistinctNames := by
    have hmade := hasDistinctNames_ensureDirectories hdistinct target.parent
    rwa [hmake] at hmade
  have hempty := hasDistinctNames_createFrom hbefore hcreate
  have hwritten := hasDistinctNames_changeFile hempty (fun _ _ => rfl) hwrite
  have hpermitted := hasDistinctNames_changeFile hwritten (fun _ _ => rfl) hpermit
  exact hasDistinctNames_replace hpermitted hreplace

/-- A call that has succeeded succeeds once more and changes nothing that is seen, if its target leads to the
artifact and the path of the directory of its temporary file avoids the replaced place. -/
theorem store_again {fs after : FileSystem} {m : Manifest} {target : Path} {chunkSize : Int}
    {location : List Text} (hdistinct : fs.top.HasDistinctNames) (hname : IsEntryName target.name)
    (h : store fs m target chunkSize = (after, .ok ()))
    (hleads : after.LeadsTo .itself target.toText location)
    (havoids : location ∉ after.footprint .target (after.absolute target.parent).toText) :
    ∃ final, store after m target chunkSize = (final, .ok ()) ∧ final.working = after.working ∧
      ∀ other, final.top.look other = after.top.look other := by
  obtain ⟨text, bytes, before, replaced, hencode, hbytes, hmake, ⟨temporary, empty, hcreate⟩, hend, hreplaces⟩ :=
    exists_replaces_of_store h
  obtain rfl := hreplaces.location_eq hleads
  have hbefore : before.top.HasDistinctNames := by
    have hmade := hasDistinctNames_ensureDirectories hdistinct target.parent
    rwa [hmake] at hmade
  have hparent := isDirectory_parent hname (isDirectory_of_ensureDirectories hmake) hreplaces.checked hleads
  obtain ⟨temporary', empty', hcreate'⟩ :=
    exists_createTemporary_again hreplaces hbefore hname havoids hcreate
  obtain ⟨beside, hempty⟩ := createFrom_eq_ok hcreate'
  obtain ⟨written, hwrite, hwritten⟩ := hempty.write bytes
  obtain ⟨permitted, hpermit, hpermitted⟩ := hwritten.permit mode
  have hends := Node.endsAt_of_some hreplaces.at?_after rfl
  obtain ⟨final, hreplace⟩ :=
    hpermitted.exists_replace_iff.2 ⟨hreplaces.checked, hend, _, hleads, hends.not_directory⟩
  obtain ⟨place, hagain⟩ := hpermitted.replace hreplace
  obtain rfl := hagain.leads.location_eq hleads
  refine ⟨final, store_eq_ok_iff.2 ⟨text, after, temporary', empty', bytes, written, permitted, hencode,
    ensureDirectories_of_isDirectory hparent, hcreate', hbytes, hwrite, hpermit, hreplace⟩, hagain.working,
    fun other => ?_⟩
  by_cases hother : other = place
  · rw [hother, hagain.file, hreplaces.file]
  · exact hagain.others other hother

end ModuleCatalog.Artifact
