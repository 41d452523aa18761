import ModuleCatalog.Proofs.Artifact.Loading
import ModuleCatalog.Proofs.Text.Newline

/-!
# Artifacts with other line ends

The line ends of a stored artifact may be rewritten, and the same manifest is still loaded. No string of a
manifest takes part in this: whatever line ends its strings have are escaped, in the payload and once more
in the document, and so every line feed of the file is a blank of the document.
-/

namespace ModuleCatalog.Artifact

open FileSystem

theorem textOf_of_rewritten {m : Manifest} {chunkSize : Int} {text : Text} {bytes bytes' : Bytes}
    (hencode : encode m chunkSize = .ok text) (hbytes : Utf8.encode text = .ok bytes)
    (h : LineEndsRewritten 0x0A 0x0D bytes bytes') : textOf bytes' = .ok text := by
  obtain ⟨chunks, rfl, -⟩ := exists_chunks_of_encode hencode
  obtain ⟨text', htext', hbytes'⟩ := Utf8.exists_rewritten hbytes h
  rw [textOf, Utf8.decode_eq_of_encode_eq (hbytes' 0), Except.map,
    htext'.foldNewlines_eq (hasNoReturn_documentText chunks)]

/-- A stored manifest is loaded, up to the numbers of its modules, and still is after the line ends of the
file have been rewritten, if the target does not lead on through a link that stood where the artifact now
stands. -/
theorem load_rewritten {fs after : FileSystem} {m : Manifest} {target : Path} {chunkSize : Int}
    (h : store fs m target chunkSize = (after, .ok ())) :
    ∃ before location, AddsParents fs before target.parent ∧ before.LeadsTo .itself target.toText location ∧
      (before.LeadsAround target location →
        ∃ bytes restored, after.read target = .ok bytes ∧ load after target = .ok restored ∧
          m.Isomorphic restored ∧
          ∀ bytes', LineEndsRewritten 0x0A 0x0D bytes bytes' →
            ∃ changed, after.write target bytes' = .ok changed ∧ load changed target = .ok restored) ∧
      (¬ before.LeadsAround target location → load after target =
        .error (.artifact target (.unreadable (.fault .notDirectory [target.toText])))) ∧
      ((∀ link, fs.top.look location ≠ some (.link link)) → before.LeadsAround target location) := by
  obtain ⟨text, bytes, before, location, hencode, hbytes, hadds, hreplaces⟩ := replaces_of_store h
  refine ⟨before, location, hadds, hreplaces.leads, fun haround => ?_, fun haround => ?_, fun hlink => ?_⟩
  · have hleads := hreplaces.leadsTo_iff.2 haround
    refine ⟨bytes, m.normal, hreplaces.read hleads, load_of_leadsTo hencode hbytes hreplaces hleads,
      m.isomorphic_normal, fun bytes' hrewritten => ?_⟩
    obtain ⟨changed, hwrite, hchanged, hleads'⟩ := hreplaces.write hleads bytes'
    exact ⟨changed, hwrite,
      load_of_textOf hencode (textOf_of_rewritten hencode hbytes hrewritten) hchanged hleads'⟩
  · exact load_of_not_leadsTo hreplaces (mt hreplaces.leadsTo_iff.1 haround)
  · exact hreplaces.leadsTo_iff.1 (hreplaces.leadsTo_of_not_link (hadds.look_ne_link hlink))

/-! ## A directory without entries -/

/-- An empty directory. -/
def emptyTree : FileSystem := ⟨.directory [], [], ⟨none, []⟩⟩

/-- A module whose name holds line ends of all kinds. -/
def brokenLines : Manifest where
  modules := [⟨"A", "\r\n\r\n\n", []⟩]
  buckets := [("x", [0])]
  nodup_names := by decide

theorem look_emptyTree_ne_link (location : List Text) (link : Text) :
    emptyTree.top.look location ≠ some (.link link) := by
  cases location <;> exact fun h => nomatch h

theorem load_rewritten_emptyTree : ∃ after bytes restored,
    store emptyTree brokenLines "m" 30 = (after, .ok ()) ∧ after.read "m" = .ok bytes ∧
      brokenLines.Isomorphic restored ∧
      ∀ ending, ending = [0x0D] ∨ ending = [0x0D, 0x0A] →
        ∃ changed, after.write "m" (bytes.flatMap fun b => if b = 0x0A then ending else [b]) = .ok changed ∧
          load changed "m" = .ok restored := by
  have hresult : (store emptyTree brokenLines "m" 30).2 = .ok () := by cbv
  have hstore : store emptyTree brokenLines "m" 30 = ((store emptyTree brokenLines "m" 30).1, .ok ()) :=
    Prod.ext rfl hresult
  obtain ⟨before, location, -, -, hload, -, haround⟩ := load_rewritten hstore
  obtain ⟨bytes, restored, hread, -, hisomorphic, hrewritten⟩ :=
    hload (haround (look_emptyTree_ne_link location))
  refine ⟨_, bytes, restored, hstore, hread, hisomorphic, fun ending hending => ?_⟩
  exact hrewritten _ (.of_flatMap hending bytes)

/-- A stored manifest is not always loaded: the path goes through a link that the artifact has replaced. -/
theorem not_load_selfLink : (store selfLink default "d/d" defaultChunkSize).2 = .ok () ∧
    load (store selfLink default "d/d" defaultChunkSize).1 "d/d" =
      .error (.artifact "d/d" (.unreadable (.fault .notDirectory ["d/d"]))) :=
  ⟨by cbv, by cbv⟩

end ModuleCatalog.Artifact
