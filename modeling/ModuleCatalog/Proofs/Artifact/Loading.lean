import ModuleCatalog.Proofs.Artifact.Atomicity
import ModuleCatalog.Proofs.Artifact.RoundTrip
import ModuleCatalog.Proofs.Json.LineEnds
import ModuleCatalog.Proofs.Text.Utf8

/-!
# Stored artifacts are loaded

The file that stands where the target led holds the normal form of the stored manifest. It is loaded from
the target if that still leads there; otherwise the path breaks off at the file.
-/

namespace ModuleCatalog.Artifact

open FileSystem

theorem exists_chunks_of_encode {m : Manifest} {chunkSize : Int} {text : Text}
    (h : encode m chunkSize = .ok text) :
    ∃ chunks, text = documentText chunks ∧ chunks.flatten = payload m := by
  by_cases hsize : chunkSize < 1
  · rw [encode_of_lt hsize] at h
    cases h
  · rw [encode_of_le (Int.not_lt.1 hsize)] at h
    exact ⟨_, (Except.ok.inj h).symm, flatten_chunksOf (by omega) (payload m)⟩

theorem hasNoReturn_documentText (chunks : List Text) : (documentText chunks).HasNoReturn :=
  List.forall_mem_append.2 ⟨Json.hasNoReturn_indented (isPlain_documentJson chunks), by decide⟩

theorem textOf_of_encode {m : Manifest} {chunkSize : Int} {text : Text} {bytes : Bytes}
    (hencode : encode m chunkSize = .ok text) (hbytes : Utf8.encode text = .ok bytes) :
    textOf bytes = .ok text := by
  obtain ⟨chunks, rfl, -⟩ := exists_chunks_of_encode hencode
  rw [textOf, Utf8.decode_eq_of_encode_eq hbytes, Except.map,
    (hasNoReturn_documentText chunks).foldNewlines_eq]

section Load

variable {before after : FileSystem} {target : Path} {location : List Text} {m : Manifest}
  {chunkSize : Int} {text : Text} {bytes : Bytes} {mode : Nat}

/-- The normal form of a manifest is loaded from every file whose text is its artifact. -/
theorem load_of_read (hencode : encode m chunkSize = .ok text) (hbytes : textOf bytes = .ok text)
    (hread : after.read target = .ok bytes) : load after target = .ok m.normal := by
  have htext : after.readText target = .ok text := by
    simp only [readText, hread, hbytes, Except.mapError, bind, Except.bind]
  obtain ⟨chunks, rfl, hchunks⟩ := exists_chunks_of_encode hencode
  simp only [load, htext, decode_documentText m hchunks, Except.mapError, bind, Except.bind]

theorem load_of_textOf (hencode : encode m chunkSize = .ok text) (hbytes : textOf bytes = .ok text)
    (h : Replaces before target location bytes mode after)
    (hleads : after.LeadsTo .itself target.toText location) : load after target = .ok m.normal :=
  load_of_read hencode hbytes (h.read hleads)

theorem load_of_leadsTo (hencode : encode m chunkSize = .ok text) (hbytes : Utf8.encode text = .ok bytes)
    (h : Replaces before target location bytes mode after)
    (hleads : after.LeadsTo .itself target.toText location) : load after target = .ok m.normal :=
  load_of_textOf hencode (textOf_of_encode hencode hbytes) h hleads

theorem load_of_not_leadsTo (h : Replaces before target location bytes mode after)
    (hleads : ¬ after.LeadsTo .itself target.toText location) :
    load after target =
      .error (.artifact target (.unreadable (.fault .notDirectory [target.toText]))) := by
  simp only [load, readText, h.read_of_not_leadsTo hleads, Except.mapError, bind, Except.bind, readFailure]

end Load

theorem encode_of_store {fs after : FileSystem} {m : Manifest} {target : Path} {chunkSize : Int}
    (h : store fs m target chunkSize = (after, .ok ())) : ∃ text, encode m chunkSize = .ok text := by
  by_cases hsize : chunkSize < 1
  · rw [store, storeWith_of_lt [] fs m target hsize] at h
    cases h
  · exact ⟨_, encode_of_le (Int.not_lt.1 hsize) m⟩

/-- What a call that succeeds has put in place. -/
theorem replaces_of_store {fs after : FileSystem} {m : Manifest} {target : Path} {chunkSize : Int}
    (h : store fs m target chunkSize = (after, .ok ())) :
    ∃ text bytes before location, encode m chunkSize = .ok text ∧ Utf8.encode text = .ok bytes ∧
      AddsParents fs before target.parent ∧ Replaces before target location bytes mode after := by
  obtain ⟨text, hencode⟩ := encode_of_store h
  have houtcome := outcome_storeWith [] fs m target hencode
  rw [show storeWith [] fs m target chunkSize = (after, .ok ()) from h] at houtcome
  obtain ⟨before, bytes, location, hbytes, hadds, hreplaces⟩ := houtcome
  exact ⟨text, bytes, before, location, hencode, hbytes, hadds, hreplaces⟩

/-- A stored manifest is loaded, up to the numbers of its modules, if its target does not lead on through a
link that stood where the artifact now stands. -/
theorem load_of_store {fs after : FileSystem} {m : Manifest} {target : Path} {chunkSize : Int}
    (h : store fs m target chunkSize = (after, .ok ())) :
    ∃ before location, AddsParents fs before target.parent ∧ before.LeadsTo .itself target.toText location ∧
      (before.LeadsAround target location →
        ∃ restored, load after target = .ok restored ∧ m.Isomorphic restored) ∧
      (¬ before.LeadsAround target location → load after target =
        .error (.artifact target (.unreadable (.fault .notDirectory [target.toText])))) ∧
      ((∀ link, before.top.look location ≠ some (.link link)) → before.LeadsAround target location) := by
  obtain ⟨text, bytes, before, location, hencode, hbytes, hadds, hreplaces⟩ := replaces_of_store h
  refine ⟨before, location, hadds, hreplaces.leads, fun haround => ?_, fun haround => ?_, fun hlink => ?_⟩
  · have hleads := hreplaces.leadsTo_iff.2 haround
    exact ⟨m.normal, load_of_leadsTo hencode hbytes hreplaces hleads, m.isomorphic_normal⟩
  · exact load_of_not_leadsTo hreplaces (mt hreplaces.leadsTo_iff.1 haround)
  · exact hreplaces.leadsTo_iff.1 (hreplaces.leadsTo_of_not_link hlink)

end ModuleCatalog.Artifact
