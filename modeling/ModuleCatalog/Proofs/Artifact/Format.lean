import ModuleCatalog.Artifact.Decode
import ModuleCatalog.Proofs.Number.Binary64
import ModuleCatalog.Proofs.Fallible

/-!
# The format of an artifact

Which texts are artifacts, and what an artifact holds, is said here by relations between JSON values and
the data that they describe. The reader decides these relations: it accepts the artifacts and no other
text, and gives what an artifact holds.
-/

namespace ModuleCatalog

open Json (field?)

/-! ## Numbers -/

/-- The rational number that a value is compared as; truth counts as one and falsehood as zero. -/
def Json.toRat? : Json → Option ℚ
  | .boolean value => some (if value then 1 else 0)
  | .integer value => some value
  | .number value => value.toRat?
  | .null | .string _ | .array _ | .object _ => none

theorem Json.isOne_iff (v : Json) : v.isOne ↔ v.toRat? = some 1 := by
  cases v with
  | boolean value => cases value <;> simp [isOne, toRat?]
  | integer value => simp [isOne, toRat?]
  | number value =>
    rw [isOne, toRat?, Binary64.equalsInt_iff]
    norm_num
  | null | string | array | object => simp [isOne, toRat?]

/-! ## Entries -/

/-- An object under whose keys the name and the attributes of a category stand. -/
def Category.IsBuiltFrom (c : Category) (entry : Json) : Prop :=
  ∃ members, entry = .object members ∧
    field? "name" members = some (.string c.name) ∧
    field? "attributes" members = some (.array (c.attributes.map Attribute.toJson))

/-- An object under whose keys the parts of a module stand. -/
def Module.IsBuiltFrom (m : Module) (entry : Json) : Prop :=
  ∃ members categories, entry = .object members ∧
    field? "namespace" members = some (.string m.enclosing) ∧
    field? "type" members = some (.string m.typeName) ∧
    field? "categories" members = some (.array categories) ∧
    List.Forall₂ (fun entry c => Category.IsBuiltFrom c entry) categories m.categories

namespace Artifact

/-- The entry of a bucket: its name, and the places of its members. -/
def bucketEntry {size : Nat} (bucket : Text × List (Fin size)) : Json :=
  .array [.string bucket.1, .array (bucket.2.map fun place => .integer place.val)]

/-- Buckets with different names that refer to places of a table of a size. -/
def IsIndex (size : Nat) (index : List Json) : Prop :=
  ∃ buckets : List (Text × List (Fin size)),
    index = buckets.map bucketEntry ∧ (Assoc.keys buckets).Nodup

/-! ## Layers -/

/-- A document of the version one whose chunks make up a payload with entries of modules and an index. -/
def HoldsEntries (text : Text) (modules index : List Json) : Prop :=
  ∃ (document : List (Text × Json)) (chunks : List Text) (payload : List (Text × Json)),
    Json.parse text = .ok (.object document) ∧
    (field? "version" document).bind Json.toRat? = some 1 ∧
    field? "chunks" document = some (.array (chunks.map .string)) ∧
    Json.parse chunks.flatten = .ok (.object payload) ∧
    field? "modules" payload = some (.array modules) ∧
    field? "index" payload = some (.array index)

/-- Whether a text is an artifact: every entry of a module is well formed, referred to or not, and every
reference is a place among them. -/
def IsArtifact (text : Text) : Prop :=
  ∃ modules index, HoldsEntries text modules index ∧
    (∀ entry ∈ modules, ∃ m, Module.IsBuiltFrom m entry) ∧ IsIndex modules.length index

/-- Whether an artifact holds a manifest: its modules are those of the entries, and a member of a bucket
is the module at the place that the index has for it. -/
def Holds (text : Text) (m : Manifest) : Prop :=
  ∃ modules index, HoldsEntries text modules index ∧
    List.Forall₂ (fun entry module => Module.IsBuiltFrom module entry) modules m.modules ∧
    index = m.buckets.map bucketEntry

/-! ## Readers of entries -/

theorem readAttribute_eq_ok_iff (category : Text) (entry : Json) (a : Attribute) :
    readAttribute category entry = .ok a ↔ entry = a.toJson := by
  constructor
  · intro h
    unfold readAttribute at h
    split at h
    · obtain rfl := Except.ok.inj h
      rfl
    · obtain rfl := Except.ok.inj h
      rfl
    · cases h
  · rintro rfl
    obtain ⟨key, value⟩ := a
    cases key with
    | none => rfl
    | some key => rfl

theorem readAttributes_eq_ok_iff (category : Text) (entries : List Json) (attributes : List Attribute) :
    entries.mapM (readAttribute category) = .ok attributes ↔
      entries = attributes.map Attribute.toJson := by
  simp only [mapM_eq_ok_iff, readAttribute_eq_ok_iff, forall₂_eq_map_iff]

theorem object?_eq_some_iff {v : Json} {members : List (Text × Json)} :
    v.object? = some members ↔ v = .object members := by
  cases v <;> simp [Json.object?]

theorem readCategory_eq_ok_iff (entry : Json) (c : Category) :
    readCategory entry = .ok c ↔ c.IsBuiltFrom entry := by
  constructor
  · intro h
    unfold readCategory at h
    split at h
    · cases h
    · next members hmembers =>
      split at h
      · next name attributes hname hattributes =>
        obtain ⟨read, hread, rfl⟩ := map_eq_ok_iff.1 h
        rw [readAttributes_eq_ok_iff] at hread
        exact ⟨members, object?_eq_some_iff.1 hmembers, hname, hread ▸ hattributes⟩
      · cases h
  · rintro ⟨members, rfl, hname, hattributes⟩
    have hread := (readAttributes_eq_ok_iff c.name _ c.attributes).2 rfl
    simp only [readCategory, Json.object?, hname, hattributes, hread]
    rfl

theorem readModule_eq_ok_iff (entry : Json) (m : Module) :
    readModule entry = .ok m ↔ m.IsBuiltFrom entry := by
  constructor
  · intro h
    unfold readModule at h
    split at h
    · cases h
    · next members hmembers =>
      split at h
      · next enclosing typeName categories henclosing htypeName hcategories =>
        obtain ⟨read, hread, rfl⟩ := map_eq_ok_iff.1 h
        simp only [mapM_eq_ok_iff, readCategory_eq_ok_iff] at hread
        exact ⟨members, categories, object?_eq_some_iff.1 hmembers, henclosing, htypeName, hcategories,
          hread⟩
      · cases h
  · rintro ⟨members, categories, rfl, henclosing, htypeName, hcategories, hread⟩
    simp only [← readCategory_eq_ok_iff, ← mapM_eq_ok_iff] at hread
    simp only [readModule, Json.object?, henclosing, htypeName, hcategories, hread]
    rfl

/-! ## Readers of the index -/

theorem readReference_eq_ok_iff (size : Nat) (bucket : Text) (entry : Json) (place : Fin size) :
    readReference size bucket entry = .ok place ↔ entry = .integer place.val := by
  constructor
  · intro h
    unfold readReference at h
    split at h
    · split at h
      · obtain rfl := Except.ok.inj h
        rfl
      · cases h
    · cases h
  · rintro rfl
    exact dif_pos place.isLt

theorem readReferences_eq_ok_iff (size : Nat) (bucket : Text) (entries : List Json)
    (places : List (Fin size)) :
    entries.mapM (readReference size bucket) = .ok places ↔
      entries = places.map fun place => .integer place.val := by
  simp only [mapM_eq_ok_iff, readReference_eq_ok_iff, forall₂_eq_map_iff]

theorem readBuckets_cons {size : Nat} {taken : List Text} {name : Text} {references : List Json}
    {entries : List Json} {places : List (Fin size)} {buckets : List (Text × List (Fin size))}
    (hname : name ∉ taken) (hplaces : references.mapM (readReference size name) = .ok places)
    (hrest : readBuckets size (name :: taken) entries = .ok buckets) :
    readBuckets size taken (.array [.string name, .array references] :: entries) =
      .ok ((name, places) :: buckets) := by
  rw [readBuckets, if_neg hname, hplaces, hrest]
  rfl

theorem eq_map_of_readBuckets {size : Nat} {taken : List Text} {entries : List Json}
    {buckets : List (Text × List (Fin size))} (h : readBuckets size taken entries = .ok buckets) :
    entries = buckets.map bucketEntry := by
  fun_induction readBuckets size taken entries generalizing buckets with
  | case1 taken =>
    obtain rfl := Except.ok.inj h
    rfl
  | case2 => cases h
  | case3 taken name references entries hfree ih =>
    obtain ⟨places, hreferences, h⟩ := bind_eq_ok_iff.1 h
    obtain ⟨rest, hrest, h⟩ := bind_eq_ok_iff.1 h
    obtain rfl := Except.ok.inj h
    rw [readReferences_eq_ok_iff] at hreferences
    rw [List.map_cons, ← ih hrest, bucketEntry, hreferences]
  | case4 => cases h

theorem readBuckets_map {size : Nat} (buckets : List (Text × List (Fin size))) (taken : List Text)
    (hnodup : (Assoc.keys buckets).Nodup) (htaken : ∀ name ∈ Assoc.keys buckets, name ∉ taken) :
    readBuckets size taken (buckets.map bucketEntry) = .ok buckets := by
  induction buckets generalizing taken with
  | nil => rfl
  | cons bucket buckets ih =>
    obtain ⟨name, places⟩ := bucket
    rw [Assoc.keys_cons, List.nodup_cons] at hnodup
    apply readBuckets_cons (htaken name List.mem_cons_self)
    · rw [readReferences_eq_ok_iff]
    · apply ih _ hnodup.2
      intro other hother hmem
      rcases List.mem_cons.1 hmem with rfl | hmem
      · exact hnodup.1 hother
      · exact htaken other (List.mem_cons_of_mem _ hother) hmem

theorem readBuckets_eq_ok_iff (size : Nat) (entries : List Json)
    (buckets : List (Text × List (Fin size))) :
    readBuckets size [] entries = .ok buckets ↔
      entries = buckets.map bucketEntry ∧ (Assoc.keys buckets).Nodup := by
  constructor
  · exact fun h => ⟨eq_map_of_readBuckets h, (nodup_readBuckets h).1⟩
  · rintro ⟨rfl, hnodup⟩
    exact readBuckets_map buckets [] hnodup fun _ _ => List.not_mem_nil

/-! ## Readers of the layers -/

theorem readPayload_eq_ok_iff (v : Json) (m : Manifest) :
    readPayload v = .ok m ↔ ∃ payload modules index, v = .object payload ∧
      field? "modules" payload = some (.array modules) ∧
      field? "index" payload = some (.array index) ∧
      List.Forall₂ (fun entry module => Module.IsBuiltFrom module entry) modules m.modules ∧
      index = m.buckets.map bucketEntry := by
  constructor
  · intro h
    unfold readPayload at h
    split at h
    · cases h
    · next payload hpayload =>
      split at h
      · next modules index hmodules hindex =>
        obtain ⟨table, hread, h⟩ := bind_eq_ok_iff.1 h
        split at h
        · cases h
        · next buckets hbuckets =>
          obtain rfl := Except.ok.inj h
          simp only [mapM_eq_ok_iff, readModule_eq_ok_iff] at hread
          obtain ⟨hentries, -⟩ := (readBuckets_eq_ok_iff ..).1 hbuckets
          exact ⟨payload, modules, index, object?_eq_some_iff.1 hpayload, hmodules, hindex, hread, hentries⟩
      · cases h
  · rintro ⟨payload, modules, index, rfl, hmodules, hindex, hread, rfl⟩
    simp only [← readModule_eq_ok_iff, ← mapM_eq_ok_iff] at hread
    have hbuckets := (readBuckets_eq_ok_iff ..).2 ⟨rfl, m.nodup_names⟩
    simp only [readPayload, Json.object?, hmodules, hindex, hread, bind, Except.bind]
    split
    · next e herror => cases hbuckets.symm.trans herror
    · next buckets hok =>
      obtain rfl := Except.ok.inj (hbuckets.symm.trans hok)
      rfl

theorem mapM_string?_eq_some_iff (items : List Json) (chunks : List Text) :
    items.mapM Json.string? = some chunks ↔ items = chunks.map .string := by
  induction items generalizing chunks with
  | nil => cases chunks <;> simp
  | cons item items ih =>
    cases chunks with
    | nil => cases item <;> simp [Json.string?, Option.bind_eq_some_iff]
    | cons chunk chunks => cases item <;> simp [Json.string?, Option.bind_eq_some_iff, ih, and_comm]

theorem strings?_eq_some_iff (v : Json) (chunks : List Text) :
    v.strings? = some chunks ↔ v = .array (chunks.map .string) := by
  cases v with
  | array items => simp [Json.strings?, Json.array?, mapM_string?_eq_some_iff]
  | _ => simp [Json.strings?, Json.array?]

theorem isOne_getD_iff (version : Option Json) :
    (version.getD .null).isOne ↔ version.bind Json.toRat? = some 1 := by
  cases version with
  | none => simp [Json.isOne]
  | some version => exact Json.isOne_iff version

theorem readDocument_eq_ok_iff (v : Json) (t : Text) :
    readDocument v = .ok t ↔ ∃ (document : List (Text × Json)) (chunks : List Text),
      v = .object document ∧
      (field? "version" document).bind Json.toRat? = some 1 ∧
      field? "chunks" document = some (.array (chunks.map .string)) ∧ chunks.flatten = t := by
  constructor
  · intro h
    unfold readDocument at h
    split at h
    · cases h
    · next document hdocument =>
      dsimp only at h
      split at h
      · cases h
      · next hversion =>
        split at h
        · cases h
        · next chunks hchunks =>
          obtain ⟨items, hitems, hstrings⟩ := Option.bind_eq_some_iff.1 hchunks
          rw [strings?_eq_some_iff] at hstrings
          rw [Bool.not_eq_true, Bool.not_eq_false'] at hversion
          exact ⟨document, chunks, object?_eq_some_iff.1 hdocument, (isOne_getD_iff _).1 hversion,
            hstrings ▸ hitems, Except.ok.inj h⟩
  · rintro ⟨document, chunks, rfl, hversion, hchunks, rfl⟩
    have hone := (isOne_getD_iff _).2 hversion
    have hstrings := (strings?_eq_some_iff _ chunks).2 rfl
    simp [readDocument, Json.object?, hone, hchunks, hstrings]

theorem decode_eq_ok_iff (text : Text) (m : Manifest) : decode text = .ok m ↔ Holds text m := by
  unfold decode
  simp only [bind_eq_ok_iff, mapError_eq_ok_iff, readDocument_eq_ok_iff, readPayload_eq_ok_iff]
  constructor
  · rintro ⟨_, hdocument, _, ⟨document, chunks, rfl, hversion, hchunks, rfl⟩, _, hpayload, payload,
      modules, index, rfl, hmodules, hindex, htable, hbuckets⟩
    exact ⟨modules, index, ⟨document, chunks, payload, hdocument, hversion, hchunks, hpayload, hmodules,
      hindex⟩, htable, hbuckets⟩
  · rintro ⟨modules, index, ⟨document, chunks, payload, hdocument, hversion, hchunks, hpayload, hmodules,
      hindex⟩, htable, hbuckets⟩
    exact ⟨_, hdocument, _, ⟨document, chunks, rfl, hversion, hchunks, rfl⟩, _, hpayload, payload,
      modules, index, rfl, hmodules, hindex, htable, hbuckets⟩

/-! ## Artifacts are accepted -/

theorem isArtifact_iff (text : Text) : IsArtifact text ↔ ∃ m, Holds text m := by
  constructor
  · rintro ⟨modules, index, hentries, hmodules, hindex⟩
    obtain ⟨table, htable⟩ := exists_forall₂_iff.2 hmodules
    rw [htable.length_eq] at hindex
    obtain ⟨buckets, hbuckets, hnodup⟩ := hindex
    exact ⟨⟨table, buckets, hnodup⟩, modules, index, hentries, htable, hbuckets⟩
  · rintro ⟨m, modules, index, hentries, htable, hbuckets⟩
    refine ⟨modules, index, hentries, exists_forall₂_iff.1 ⟨_, htable⟩, ?_⟩
    rw [htable.length_eq]
    exact ⟨m.buckets, hbuckets, m.nodup_names⟩

/-- An artifact is read as the manifest that it holds, and every other text is refused. -/
theorem decode_spec (text : Text) :
    (IsArtifact text ∧ ∃ m, decode text = .ok m ∧ Holds text m) ∨
      (¬ IsArtifact text ∧ ∃ error, decode text = .error error) := by
  cases h : decode text with
  | ok m =>
    have hholds := (decode_eq_ok_iff text m).1 h
    exact .inl ⟨(isArtifact_iff text).2 ⟨m, hholds⟩, m, rfl, hholds⟩
  | error e =>
    refine .inr ⟨?_, e, rfl⟩
    intro hartifact
    obtain ⟨m, hholds⟩ := (isArtifact_iff text).1 hartifact
    rw [(decode_eq_ok_iff text m).2 hholds] at h
    cases h

end Artifact

end ModuleCatalog
