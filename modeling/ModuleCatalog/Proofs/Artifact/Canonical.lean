import ModuleCatalog.Proofs.Artifact.RoundTrip
import ModuleCatalog.Proofs.Manifest.Isomorphism

/-!
# The canonical text of an artifact

Reading an artifact and writing it again forgets how it was laid out: its blanks, its chunks, the order of its
module entries, and the entries that nothing refers to. What is left tells exactly the manifests apart that are
not isomorphic. It is a text of its own: reading and writing it changes nothing.
-/

namespace ModuleCatalog.Artifact

open Manifest (Isomorphic)

/-- What is written, with chunks of a size, of the manifest that is read from a text. -/
def recode (t : Text) (chunkSize : Int) : Option Text := do
  let m ← (decode t).toOption
  (encode m chunkSize).toOption

variable {a b : Manifest}

/-! ## Payloads of isomorphic manifests -/

/-- A bucket's entry shows its name and the ranks of its members, and nothing else. -/
theorem map_bucketJson_eq_zipWith (m : Manifest) :
    m.buckets.map (bucketJson m) =
      List.zipWith (fun name ranks => Json.array [.string name, .array (ranks.map fun rank => .integer (rank : Nat))])
        (Assoc.keys m.buckets) (m.buckets.map fun bucket => bucket.2.map m.rank) := by
  rw [Assoc.keys, List.zipWith_map, List.zipWith_self]
  simp only [List.map_map]
  rfl

theorem payload_eq_of_isomorphic (h : a.Isomorphic b) : payload a = payload b := by
  have hmodules : (a.firstUses.map fun reference => (a.module reference).toJson) =
      b.firstUses.map fun reference => (b.module reference).toJson :=
    calc (a.firstUses.map fun reference => (a.module reference).toJson)
        = (a.firstUses.map a.module).map Module.toJson := by rw [List.map_map]; rfl
      _ = (b.firstUses.map b.module).map Module.toJson := by rw [h.map_firstUses]
      _ = b.firstUses.map fun reference => (b.module reference).toJson := by rw [List.map_map]; rfl
  have hindex : a.buckets.map (bucketJson a) = b.buckets.map (bucketJson b) := by
    rw [map_bucketJson_eq_zipWith, map_bucketJson_eq_zipWith, h.names, h.map_buckets h.map_rank]
  rw [payload, payload, payloadJson, payloadJson, hmodules, hindex]

/-- Only isomorphic manifests have the same written form. -/
theorem isomorphic_of_documentText {chunks chunks' : List Text} (hchunks : chunks.flatten = payload a)
    (hchunks' : chunks'.flatten = payload b) (h : documentText chunks = documentText chunks') : a.Isomorphic b := by
  have hdecode := decode_documentText a hchunks
  rw [h, decode_documentText b hchunks'] at hdecode
  have hnormal : a.Isomorphic b.normal := Except.ok.inj hdecode ▸ a.isomorphic_normal
  exact hnormal.trans b.isomorphic_normal.symm

/-! ## Reading and writing again -/

section Recode

variable {t u : Text} {chunkSize : Int}

theorem recode_of_decode (h : decode t = .ok a) (hsize : 1 ≤ chunkSize) :
    recode t chunkSize = some (documentText (chunksOf chunkSize.toNat (payload a))) := by
  rw [recode, h, Except.toOption, Option.bind_eq_bind, Option.bind_some, encode_of_le hsize]
  rfl

theorem flatten_chunksOf_payload (m : Manifest) (hsize : 1 ≤ chunkSize) :
    (chunksOf chunkSize.toNat (payload m)).flatten = payload m := by
  have hpositive : 0 < chunkSize.toNat := by omega
  exact flatten_chunksOf hpositive (payload m)

theorem recode_eq_recode_iff (ht : decode t = .ok a) (hu : decode u = .ok b) (hsize : 1 ≤ chunkSize) :
    recode t chunkSize = recode u chunkSize ↔ a.Isomorphic b := by
  rw [recode_of_decode ht hsize, recode_of_decode hu hsize, Option.some.injEq]
  constructor
  · exact isomorphic_of_documentText (flatten_chunksOf_payload a hsize) (flatten_chunksOf_payload b hsize)
  · intro h
    rw [payload_eq_of_isomorphic h]

/-- Two artifacts have the same canonical text exactly if their manifests are isomorphic. It holds each module
that is referred to once, in the order of the first references, and no other one. -/
theorem recode_eq_iff_isomorphic (ht : decode t = .ok a) (hu : decode u = .ok b) (hsize : 1 ≤ chunkSize) :
    (recode t chunkSize = recode u chunkSize ↔ a.Isomorphic b) ∧
    ∃ text, recode t chunkSize = some text ∧ recode text chunkSize = some text ∧
      HoldsEntries text (a.firstUses.map fun reference => (a.module reference).toJson)
        (a.buckets.map (bucketJson a)) ∧
      (a.firstUses.Pairwise fun r s => a.references.idxOf r < a.references.idxOf s) ∧
      ∀ reference, reference ∈ a.firstUses ↔ reference ∈ a.references := by
  have hchunks := flatten_chunksOf_payload a hsize
  have hrecode := recode_of_decode ht hsize
  have hagain : recode (documentText (chunksOf chunkSize.toNat (payload a))) chunkSize = recode t chunkSize :=
    (recode_eq_recode_iff (decode_documentText a hchunks) ht hsize).2 a.isomorphic_normal.symm
  exact ⟨recode_eq_recode_iff ht hu hsize, _, hrecode, hagain.trans hrecode, holdsEntries_documentText a hchunks,
    Manifest.pairwise_firstOccurrences a.references, fun _ => Manifest.mem_firstUses⟩

end Recode

/-! ## Other texts of a manifest -/

/-- The payload with the whole table of a manifest, whatever is used of it, behind the index. -/
def loosePayload (m : Manifest) : Json :=
  .object [("index", .array (m.buckets.map bucketEntry)), ("note", .null),
    ("modules", .array (m.modules.map Module.toJson))]

/-- A text of a manifest that is laid out otherwise than what is written of it. -/
def looseText (m : Manifest) : Text :=
  documentText [(loosePayload m).indented .unicode]

theorem isPlain_loosePayload (m : Manifest) : Json.IsPlain .unicode (loosePayload m) := by
  have hmodules : Json.ArePlain .unicode (m.modules.map Module.toJson) :=
    Json.arePlain_map fun entry _ => entry.isPlain_toJson
  have hindex : Json.ArePlain .unicode (m.buckets.map bucketEntry) :=
    Json.arePlain_map fun bucket _ =>
      ⟨Json.isReadable_unicode _, Json.arePlain_map fun _ _ => trivial, trivial⟩
  refine ⟨⟨Json.isReadable_unicode _, hindex, Json.isReadable_unicode _, trivial,
    Json.isReadable_unicode _, hmodules, trivial⟩, ?_⟩
  show ([Text.ofString "index", Text.ofString "note", Text.ofString "modules"]).Nodup
  decide

/-- Every manifest is read from some text, with its table as it is. -/
theorem decode_looseText (m : Manifest) : decode (looseText m) = .ok m := by
  have hparse := Json.parse_written .lines .unicode (loosePayload m) [] (isPlain_loosePayload m)
    (List.forall_mem_nil _)
  have hversion : (Json.integer version).toRat? = some 1 := by simp [Json.toRat?, version]
  have hpayload : Json.parse ([(loosePayload m).indented .unicode] : List Text).flatten = .ok (loosePayload m) := hparse
  have hentries : HoldsEntries (looseText m) (m.modules.map Module.toJson) (m.buckets.map bucketEntry) :=
    ⟨_, _, _, parse_documentText _, hversion, rfl, hpayload, rfl, rfl⟩
  have htable : List.Forall₂ (fun entry module => Module.IsBuiltFrom module entry)
      (m.modules.map Module.toJson) m.modules := by
    rw [List.forall₂_map_left_iff, List.forall₂_same]
    exact fun entry _ => isBuiltFrom_toJson_module entry
  exact (decode_eq_ok_iff _ m).2 ⟨_, _, hentries, htable, rfl⟩

/-- Two equal modules that are not the same, the second one used first. -/
def reversedTwins : Manifest where
  modules := [⟨"A", "C", []⟩, ⟨"A", "C", []⟩]
  buckets := [("x", [1, 0, 1])]
  nodup_names := by decide

/-- Two equal modules around one that is never used. -/
def partedTwins : Manifest where
  modules := [⟨"A", "C", []⟩, ⟨"B", "D", [.bare "x"]⟩, ⟨"A", "C", []⟩]
  buckets := [("x", [0, 2, 0])]
  nodup_names := by decide

theorem isomorphic_partedTwins : reversedTwins.Isomorphic partedTwins where
  names := rfl
  sizes := rfl
  modules := rfl
  sharing i j hai haj hbi hbj := by
    have hplaces : ∀ i j : Fin 3, reversedTwins.references[i] = reversedTwins.references[j] ↔
        partedTwins.references[i] = partedTwins.references[j] := by decide
    exact hplaces ⟨i, hai⟩ ⟨j, haj⟩

theorem recode_eq_iff_isomorphic_twins : decode (looseText reversedTwins) = .ok reversedTwins ∧
    decode (looseText partedTwins) = .ok partedTwins ∧
    recode (looseText reversedTwins) 20 = recode (looseText partedTwins) 20 ∧
    ∃ text, recode (looseText reversedTwins) 20 = some text ∧ recode text 20 = some text ∧
      HoldsEntries text (reversedTwins.modules.map Module.toJson)
        [.array [.string "x", .array [.integer 0, .integer 1, .integer 0]]] := by
  obtain ⟨heq, text, htext, hagain, hentries, -⟩ := recode_eq_iff_isomorphic (decode_looseText reversedTwins)
    (decode_looseText partedTwins) (show (1 : Int) ≤ 20 by decide)
  exact ⟨decode_looseText _, decode_looseText _, heq.2 isomorphic_partedTwins, text, htext, hagain, hentries⟩

end ModuleCatalog.Artifact
