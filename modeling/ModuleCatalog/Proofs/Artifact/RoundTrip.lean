import ModuleCatalog.Proofs.Artifact.Format
import ModuleCatalog.Proofs.Json.RoundTrip
import ModuleCatalog.Proofs.Manifest.NormalForm

/-!
# Artifacts read back

The text of an artifact holds the normal form of its manifest. Both of its layers are read back by the
reader of JSON: the payload is put together again from its chunks wherever these are cut, and its places
of modules are the ranks of the references.
-/

namespace ModuleCatalog

open Json (IsPlain ArePlain HavePlain field?)

/-! ## The written forms are plain -/

namespace Json

theorem isReadable_unicode (t : Text) : IsReadable .unicode t := by
  intro h
  cases h

theorem arePlain_map {α : Type} {alphabet : Alphabet} {write : α → Json} {xs : List α}
    (h : ∀ x ∈ xs, IsPlain alphabet (write x)) : ArePlain alphabet (xs.map write) := by
  induction xs with
  | nil => trivial
  | cons x xs ih =>
    exact ⟨h x List.mem_cons_self, ih fun other hother => h other (List.mem_cons_of_mem _ hother)⟩

end Json

theorem Attribute.isPlain_toJson (a : Attribute) : IsPlain .unicode a.toJson := by
  obtain ⟨key, value⟩ := a
  have hvalue := Json.isReadable_unicode value
  cases key with
  | none => exact ⟨trivial, hvalue, trivial⟩
  | some key => exact ⟨Json.isReadable_unicode key, hvalue, trivial⟩

theorem Category.isPlain_toJson (c : Category) : IsPlain .unicode c.toJson := by
  have hattributes : ArePlain .unicode (c.attributes.map Attribute.toJson) :=
    Json.arePlain_map fun a _ => a.isPlain_toJson
  refine ⟨⟨Json.isReadable_unicode _, Json.isReadable_unicode _, Json.isReadable_unicode _,
    hattributes, trivial⟩, ?_⟩
  show ([Text.ofString "name", Text.ofString "attributes"]).Nodup
  decide

theorem Module.isPlain_toJson (m : Module) : IsPlain .unicode m.toJson := by
  have hcategories : ArePlain .unicode (m.categories.map Category.toJson) :=
    Json.arePlain_map fun c _ => c.isPlain_toJson
  refine ⟨⟨Json.isReadable_unicode _, Json.isReadable_unicode _, Json.isReadable_unicode _,
    Json.isReadable_unicode _, Json.isReadable_unicode _, hcategories, trivial⟩, ?_⟩
  show ([Text.ofString "namespace", Text.ofString "type", Text.ofString "categories"]).Nodup
  decide

namespace Artifact

theorem isPlain_bucketJson (m : Manifest) (bucket : Text × List (Fin m.modules.length)) :
    IsPlain .unicode (bucketJson m bucket) := by
  have hreferences : ArePlain .unicode
      (bucket.2.map fun reference => Json.integer (m.rank reference)) :=
    Json.arePlain_map fun _ _ => trivial
  exact ⟨Json.isReadable_unicode _, hreferences, trivial⟩

theorem isPlain_payloadJson (m : Manifest) : IsPlain .unicode (payloadJson m) := by
  have hmodules : ArePlain .unicode
      (m.firstUses.map fun reference => (m.module reference).toJson) :=
    Json.arePlain_map fun reference _ => (m.module reference).isPlain_toJson
  have hindex : ArePlain .unicode (m.buckets.map (bucketJson m)) :=
    Json.arePlain_map fun bucket _ => isPlain_bucketJson m bucket
  refine ⟨⟨Json.isReadable_unicode _, hmodules, Json.isReadable_unicode _, hindex, trivial⟩, ?_⟩
  show ([Text.ofString "modules", Text.ofString "index"]).Nodup
  decide

theorem isPlain_documentJson (chunks : List Text) : IsPlain .unicode (documentJson chunks) := by
  have hchunks : ArePlain .unicode (chunks.map Json.string) :=
    Json.arePlain_map fun chunk _ => Json.isReadable_unicode chunk
  refine ⟨⟨Json.isReadable_unicode _, Json.isReadable_unicode _, Json.isReadable_unicode _, trivial,
    Json.isReadable_unicode _, hchunks, trivial⟩, ?_⟩
  show ([Text.ofString "generator", Text.ofString "version", Text.ofString "chunks"]).Nodup
  decide

/-! ## Chunks -/

theorem flatten_piecesOf {size : Nat} (hsize : 0 < size) (fuel : Nat) (t : Text)
    (hfuel : t.length ≤ fuel) : (piecesOf size fuel t).flatten = t := by
  induction fuel generalizing t with
  | zero =>
    rw [List.length_eq_zero_iff.1 (Nat.le_zero.1 hfuel)]
    rfl
  | succ fuel ih =>
    cases t with
    | nil => rfl
    | cons c t =>
      have hdrop : ((c :: t).drop size).length ≤ fuel := by
        rw [List.length_drop, List.length_cons]
        rw [List.length_cons] at hfuel
        omega
      calc (piecesOf size (fuel + 1) (c :: t)).flatten
          = (c :: t).take size ++ (piecesOf size fuel ((c :: t).drop size)).flatten := rfl
        _ = c :: t := by rw [ih _ hdrop, List.take_append_drop]

/-- The pieces of a text make it up again, however long they are. -/
theorem flatten_chunksOf {size : Nat} (hsize : 0 < size) (t : Text) :
    (chunksOf size t).flatten = t :=
  flatten_piecesOf hsize t.length t (Nat.le_refl _)

/-! ## Entries -/

theorem isBuiltFrom_toJson_category (c : Category) : c.IsBuiltFrom c.toJson := ⟨_, rfl, rfl, rfl⟩

theorem isBuiltFrom_toJson_module (m : Module) : m.IsBuiltFrom m.toJson := by
  refine ⟨_, m.categories.map Category.toJson, rfl, rfl, rfl, rfl, ?_⟩
  rw [List.forall₂_map_left_iff, List.forall₂_same]
  exact fun c _ => isBuiltFrom_toJson_category c

theorem bucketEntry_filterMap (m : Manifest) {bucket : Text × List (Fin m.modules.length)}
    (hbucket : bucket ∈ m.buckets) :
    bucketEntry (bucket.1, bucket.2.filterMap (m.place? m.normal.modules.length)) =
      bucketJson m bucket := by
  have hreferences : ∀ reference ∈ bucket.2, reference ∈ m.references :=
    fun _ => Manifest.mem_references hbucket
  have hranks : (bucket.2.pmap m.placed hreferences).map (fun place => Json.integer place.val) =
      bucket.2.map fun reference => Json.integer (m.rank reference) := by
    rw [List.map_pmap, ← List.pmap_eq_map hreferences]
    rfl
  rw [Manifest.filterMap_place? m bucket.2 hreferences, bucketEntry, hranks, bucketJson]

theorem map_bucketJson (m : Manifest) :
    m.buckets.map (bucketJson m) = m.normal.buckets.map bucketEntry := by
  simp only [Manifest.normal, List.map_map]
  apply List.map_congr_left
  intro bucket hbucket
  exact (bucketEntry_filterMap m hbucket).symm

/-! ## Both layers -/

theorem isSpace_of_mem_newline : ∀ c ∈ Text.ofString "\n", Json.isSpace c := by decide

theorem parse_documentText (chunks : List Text) :
    Json.parse (documentText chunks) = .ok (documentJson chunks) :=
  Json.parse_written .lines .unicode _ _ (isPlain_documentJson chunks) isSpace_of_mem_newline

theorem parse_payload (m : Manifest) : Json.parse (payload m) = .ok (payloadJson m) := by
  have hparse := Json.parse_written .dense .unicode (payloadJson m) [] (isPlain_payloadJson m)
    (List.forall_mem_nil _)
  rw [List.append_nil] at hparse
  exact hparse

/-- Chunks that make up the payload of a manifest hold its modules in the order of first use. -/
theorem holdsEntries_documentText (m : Manifest) {chunks : List Text} (h : chunks.flatten = payload m) :
    HoldsEntries (documentText chunks)
      (m.firstUses.map fun reference => (m.module reference).toJson) (m.buckets.map (bucketJson m)) := by
  have hversion : (Json.integer version).toRat? = some 1 := by simp [Json.toRat?, version]
  exact ⟨_, chunks, _, parse_documentText chunks, hversion, rfl, h ▸ parse_payload m, rfl, rfl⟩

/-- Chunks that make up the payload of a manifest hold its normal form. -/
theorem holds_documentText (m : Manifest) {chunks : List Text} (h : chunks.flatten = payload m) :
    Holds (documentText chunks) m.normal := by
  refine ⟨_, _, holdsEntries_documentText m h, ?_, map_bucketJson m⟩
  simp only [Manifest.normal]
  rw [List.forall₂_map_left_iff, List.forall₂_map_right_iff, List.forall₂_same]
  exact fun reference _ => isBuiltFrom_toJson_module (m.module reference)

theorem decode_documentText (m : Manifest) {chunks : List Text} (h : chunks.flatten = payload m) :
    decode (documentText chunks) = .ok m.normal :=
  (decode_eq_ok_iff _ _).2 (holds_documentText m h)

/-- What is read from an artifact is isomorphic to the manifest that was written, wherever the payload is
cut into chunks. -/
theorem decode_encode (m : Manifest) (chunkSize : Int) (h : 1 ≤ chunkSize) :
    ∃ text restored, encode m chunkSize = .ok text ∧ decode text = .ok restored ∧
      m.Isomorphic restored := by
  have hsize : 0 < chunkSize.toNat := by omega
  exact ⟨_, m.normal, encode_of_le h m, decode_documentText m (flatten_chunksOf hsize (payload m)),
    m.isomorphic_normal⟩

/-- Two equal modules that are not the same, one of them in two buckets. -/
def twins : Manifest where
  modules := [⟨"A", "B", []⟩, ⟨"A", "B", []⟩]
  buckets := [("x", [0, 1]), (Text.ofString "\"\\" ++ [CodePoint.surrogate 0], [1])]
  nodup_names := by decide

theorem decode_encode_twins : ∃ text restored, encode twins 1 = .ok text ∧ decode text = .ok restored ∧
    twins.Isomorphic restored :=
  decode_encode twins 1 (by decide)

end Artifact

end ModuleCatalog
