import ModuleCatalog.Proofs.Artifact.Characters
import ModuleCatalog.Proofs.Artifact.LineEnds
import ModuleCatalog.Proofs.Artifact.Repeat

/-!
# What can be stored

Whether something can be stored at a path depends on the file system: the directories on the way can be made, a
temporary file can be made beside the target and be moved there. Where that is so, a manifest is stored exactly if
it holds no surrogate. Escapes bring surrogates into manifests that are loaded, in the document as well as in the
payload, so not all that is loaded can be stored. What can be stored is loaded back.
-/

namespace ModuleCatalog.Artifact

open FileSystem

/-- Whether the requests of a call are answered that do not depend on what it stores. -/
def IsWritable (fs : FileSystem) (target : Path) : Prop :=
  ∃ before temporary empty after, fs.ensureDirectories target.parent = (before, .ok ()) ∧
    before.createTemporary target = .ok (temporary, empty) ∧ empty.replace temporary target = .ok after

/-- Whether these requests are answered, found by making them. -/
def admits (fs : FileSystem) (target : Path) : Bool :=
  match fs.ensureDirectories target.parent with
  | (before, .ok ()) =>
    match before.createTemporary target with
    | .ok (temporary, empty) => (empty.replace temporary target).isOk
    | .error _ => false
  | (_, .error _) => false

theorem admits_iff {fs : FileSystem} {target : Path} : admits fs target = true ↔ IsWritable fs target := by
  unfold admits
  constructor
  · intro h
    split at h
    · next before hmake =>
      split at h
      · next temporary empty hcreate =>
        cases hreplace : empty.replace temporary target with
        | ok after => exact ⟨before, temporary, empty, after, hmake, hcreate, hreplace⟩
        | error cause =>
          rw [hreplace] at h
          cases h
      · cases h
    · cases h
  · rintro ⟨before, temporary, empty, after, hmake, hcreate, hreplace⟩
    simp only [hmake, hcreate, hreplace]
    rfl

section Store

variable {fs : FileSystem} {m : Manifest} {target : Path} {chunkSize : Int}

theorem isWritable_of_store {after : FileSystem} (h : store fs m target chunkSize = (after, .ok ())) :
    IsWritable fs target := by
  obtain ⟨_, before, temporary, empty, bytes, written, permitted, -, hmake, hcreate, -, hwrite, hpermit, hreplace⟩ :=
    store_eq_ok_iff.1 h
  obtain ⟨beside, hempty⟩ := createFrom_eq_ok hcreate
  obtain ⟨_, hwrite', hwritten⟩ := hempty.write bytes
  obtain rfl := Except.ok.inj (hwrite.symm.trans hwrite')
  obtain ⟨_, hpermit', hpermitted⟩ := hwritten.permit mode
  obtain rfl := Except.ok.inj (hpermit.symm.trans hpermit')
  obtain ⟨final, hfinal⟩ := hempty.exists_replace_iff.2 (hpermitted.exists_replace_iff.1 ⟨after, hreplace⟩)
  exact ⟨before, temporary, empty, final, hmake, hcreate, hfinal⟩

theorem isUnicode_of_store {after : FileSystem} (h : store fs m target chunkSize = (after, .ok ())) : m.IsUnicode := by
  obtain ⟨text, _, _, _, bytes, _, _, hencode, -, -, hbytes, -⟩ := store_eq_ok_iff.1 h
  exact (isUnicode_iff_of_encode hencode).1 ((Utf8.exists_encode_iff text).1 ⟨bytes, hbytes⟩)

theorem exists_store_of_isUnicode (hwritable : IsWritable fs target) (hsize : 1 ≤ chunkSize) (h : m.IsUnicode) :
    ∃ after, store fs m target chunkSize = (after, .ok ()) := by
  obtain ⟨before, temporary, empty, after, hmake, hcreate, hreplace⟩ := hwritable
  have hencode := encode_of_le hsize m
  obtain ⟨bytes, hbytes⟩ := (Utf8.exists_encode_iff _).2 ((isUnicode_iff_of_encode hencode).2 h)
  obtain ⟨beside, hempty⟩ := createFrom_eq_ok hcreate
  obtain ⟨written, hwrite, hwritten⟩ := hempty.write bytes
  obtain ⟨permitted, hpermit, hpermitted⟩ := hwritten.permit mode
  obtain ⟨final, hfinal⟩ := hpermitted.exists_replace_iff.2 (hempty.exists_replace_iff.1 ⟨after, hreplace⟩)
  exact ⟨final, store_eq_ok_iff.2
    ⟨_, before, temporary, empty, bytes, written, permitted, hencode, hmake, hcreate, hbytes, hwrite, hpermit, hfinal⟩⟩

/-- Something can be stored at a path exactly if the path is writable and no surrogate is to be stored. -/
theorem exists_store_iff (hsize : 1 ≤ chunkSize) :
    (∃ after, store fs m target chunkSize = (after, .ok ())) ↔ IsWritable fs target ∧ m.IsUnicode :=
  ⟨fun ⟨_, h⟩ => ⟨isWritable_of_store h, isUnicode_of_store h⟩, fun h => exists_store_of_isUnicode h.1 hsize h.2⟩

/-- At a writable path a call fails no sooner than when the text is encoded. -/
theorem store_of_encode_error {before empty : FileSystem} {temporary : Path} {text : Text} {cause : Utf8.EncodeError}
    (hencode : encode m chunkSize = .ok text) (hmake : fs.ensureDirectories target.parent = (before, .ok ()))
    (hcreate : before.createTemporary target = .ok (temporary, empty)) (hcause : Utf8.encode text = .error cause) :
    (store fs m target chunkSize).2 = .error (.artifact target (.unencodable cause)) := by
  have hpreparing : Call.complete ⟨target, text, .preparing⟩ [] fs =
      Call.complete ⟨target, text, .creating⟩ [] before := by
    rw [Call.complete_of_none rfl, Call.answer]
    simp only [hmake]
  have hcreating : Call.complete ⟨target, text, .creating⟩ [] before =
      Call.complete ⟨target, text, .writing temporary⟩ [] empty := by
    rw [Call.complete_of_none rfl, Call.answer]
    simp only [hcreate]
  have hwriting : Call.complete ⟨target, text, .writing temporary⟩ [] empty =
      Call.complete ⟨target, text, .cleaning temporary (.artifact target (.unencodable cause))⟩ [] empty := by
    rw [Call.complete_of_none rfl, Call.answer]
    simp only [Call.writeText, hcause, Except.mapError, bind, Except.bind, Call.proceed]
  have hcleaning : (Call.complete ⟨target, text, .cleaning temporary (.artifact target (.unencodable cause))⟩ []
      empty).2 = .error (.artifact target (.unencodable cause)) := by
    rw [Call.complete_of_none rfl, Call.answer]
    dsimp only
    rw [Call.complete_finished rfl]
  simp only [store, storeWith, Call.start, hencode]
  rw [hpreparing, hcreating, hwriting, hcleaning]

/-- A manifest with a surrogate is not stored, and leaves no more behind than directories on the way. -/
theorem store_of_not_isUnicode (hwritable : IsWritable fs target) (hsize : 1 ≤ chunkSize) (h : ¬ m.IsUnicode) :
    ∃ after cause, store fs m target chunkSize = (after, .error (.artifact target (.unencodable cause))) ∧
      AddsParents fs after target.parent := by
  obtain ⟨before, temporary, empty, _, hmake, hcreate, -⟩ := hwritable
  have hencode := encode_of_le hsize m
  cases hbytes : Utf8.encode (documentText (chunksOf chunkSize.toNat (payload m))) with
  | ok bytes => exact absurd ((isUnicode_iff_of_encode hencode).1 ((Utf8.exists_encode_iff _).1 ⟨bytes, hbytes⟩)) h
  | error cause =>
    have hresult := store_of_encode_error hencode hmake hcreate hbytes
    exact ⟨_, cause, Prod.ext rfl hresult, addsParents_of_error hresult⟩

end Store

/-! ## Manifests that have been loaded -/

/-- The text of a file holds no surrogate: those of a manifest that is loaded come from escapes. -/
theorem isUnicode_of_readText {fs : FileSystem} {path : Path} {text : Text} (h : fs.readText path = .ok text) :
    text.isUnicode := by
  simp only [readText, textOf, bind_eq_ok_iff, mapError_eq_ok_iff, map_eq_ok_iff] at h
  obtain ⟨bytes, -, decoded, hdecode, rfl⟩ := h
  have hdecoded : decoded.isUnicode := (Utf8.exists_encode_iff decoded).1 ⟨bytes, Utf8.decode_eq_ok_iff.1 hdecode⟩
  exact Text.isUnicode_foldNewlines hdecoded

/-- What has been loaded can be stored at any writable path, and be loaded back from there, unless escapes have
brought a surrogate into it or the path leads on through a link that the artifact replaces. -/
theorem store_of_load {origin fs : FileSystem} {source target : Path} {m : Manifest} {chunkSize : Int}
    (hload : load origin source = .ok m) (hwritable : IsWritable fs target) (hsize : 1 ≤ chunkSize) :
    (∃ text, origin.readText source = .ok text ∧ text.isUnicode ∧ Holds text m) ∧
    (m.IsUnicode → ∃ after before location, store fs m target chunkSize = (after, .ok ()) ∧
      AddsParents fs before target.parent ∧ before.LeadsTo .itself target.toText location ∧
      (before.LeadsAround target location →
        ∃ restored, load after target = .ok restored ∧ m.Isomorphic restored) ∧
      (¬ before.LeadsAround target location → load after target =
        .error (.artifact target (.unreadable (.fault .notDirectory [target.toText])))) ∧
      ((∀ link, fs.top.look location ≠ some (.link link)) → before.LeadsAround target location)) ∧
    (¬ m.IsUnicode → ∃ after cause,
      store fs m target chunkSize = (after, .error (.artifact target (.unencodable cause))) ∧
        AddsParents fs after target.parent) := by
  simp only [load, bind_eq_ok_iff, mapError_eq_ok_iff] at hload
  obtain ⟨text, hread, hdecode⟩ := hload
  refine ⟨⟨text, hread, isUnicode_of_readText hread, (decode_eq_ok_iff text m).1 hdecode⟩, fun hunicode => ?_,
    store_of_not_isUnicode hwritable hsize⟩
  obtain ⟨after, hstore⟩ := exists_store_of_isUnicode hwritable hsize hunicode
  obtain ⟨before, location, hadds, hleads, hload, hfailure, haround⟩ := load_of_store hstore
  exact ⟨after, before, location, hstore, hadds, hleads, hload, hfailure, fun hlink => haround (hadds.look_ne_link hlink)⟩

/-- A manifest of one bucket without members. -/
def bucketOf (name : Text) : Manifest := ⟨[], [(name, [])], List.nodup_singleton name⟩

/-- An artifact of one bucket without members, whose name is given as the document escapes it. -/
def bucketText (name : String) : Text :=
  Text.ofString "\x7b\"version\": 1, \"chunks\": [\"\x7b\\\"modules\\\":[],\\\"index\\\":[[\\\"" ++ Text.ofString name ++
    Text.ofString "\\\",[]]]\x7d\"]\x7d"

/-- A directory with a link to it and two artifacts, whose names are the escapes of a letter and of a surrogate. -/
def escapedTree : FileSystem :=
  ⟨.directory [("d", .link "."), ("letter", .file (Utf8.encodeLossy (bucketText "\\\\u00e9")) 0o644),
    ("half", .file (Utf8.encodeLossy (bucketText "\\\\ud83d")) 0o644)], [], ⟨none, []⟩⟩

/-- Both artifacts are loaded, and new files can be made, here as well as in an empty directory. -/
theorem escapedTree_spec : load escapedTree "letter" = .ok (bucketOf "é") ∧
    load escapedTree "half" = .ok (bucketOf [CodePoint.surrogate 0x3D]) ∧
    IsWritable escapedTree "n" ∧ IsWritable emptyTree "n" :=
  ⟨by cbv, by cbv, admits_iff.1 (by cbv), admits_iff.1 (by cbv)⟩

theorem isUnicode_bucketOf_iff {name : Text} : (bucketOf name).IsUnicode ↔ name.isUnicode := by
  simp [Manifest.IsUnicode, bucketOf, Assoc.keys, Manifest.references]

theorem store_of_load_letter : load escapedTree "letter" = .ok (bucketOf "é") ∧ IsWritable emptyTree "n" ∧
    ∃ after restored, store emptyTree (bucketOf "é") "n" 1 = (after, .ok ()) ∧ load after "n" = .ok restored ∧
      (bucketOf "é").Isomorphic restored := by
  obtain ⟨hletter, -, -, hwritable⟩ := escapedTree_spec
  obtain ⟨-, hstored, -⟩ := store_of_load hletter hwritable (show (1 : Int) ≤ 1 by decide)
  obtain ⟨after, before, location, hafter, -, -, hload, -, haround⟩ :=
    hstored (isUnicode_bucketOf_iff.2 (Text.isUnicode_ofString _))
  obtain ⟨restored, hrestored, hisomorphic⟩ := hload (haround (look_emptyTree_ne_link location))
  exact ⟨hletter, hwritable, after, restored, hafter, hrestored, hisomorphic⟩

/-- Not everything that is loaded can be stored at a writable path, nor be loaded back if it is stored: a surrogate
cannot be encoded, and a path may go through the link that the artifact replaces. -/
theorem not_store_half : (∃ m, load escapedTree "half" = .ok m ∧ IsWritable escapedTree "n" ∧
      ∀ after, store escapedTree m "n" defaultChunkSize ≠ (after, .ok ())) ∧
    ∃ m after, load escapedTree "letter" = .ok m ∧ IsWritable escapedTree "d/d" ∧
      store escapedTree m "d/d" defaultChunkSize = (after, .ok ()) ∧
      load after "d/d" = .error (.artifact "d/d" (.unreadable (.fault .notDirectory ["d/d"]))) := by
  obtain ⟨hletter, hhalf, hwritable, -⟩ := escapedTree_spec
  have hlink : (store escapedTree (bucketOf "é") "d/d" defaultChunkSize).2 = .ok () := by cbv
  refine ⟨⟨_, hhalf, hwritable, fun after hstore => ?_⟩,
    _, _, hletter, isWritable_of_store (Prod.ext rfl hlink), Prod.ext rfl hlink, by cbv⟩
  have hunicode := isUnicode_bucketOf_iff.1 (isUnicode_of_store hstore)
  cases hunicode

end ModuleCatalog.Artifact
