import ModuleCatalog.Proofs.Artifact.Loading
import ModuleCatalog.Proofs.Manifest.Names
import ModuleCatalog.Proofs.Source.Soundness

/-!
# Characters of artifacts

An artifact holds the characters of its modules and of the tokens of JSON, in the payload and once more in the
document. Neither brings in a semicolon, so an artifact of modules that have been found in source texts declares no
module itself. A surrogate is no token either and is never escaped, so an artifact holds one exactly if its manifest
does.
-/

namespace ModuleCatalog

open Json (AllStrings AllItems allItems_map_iff tokenCharacters)

section Strings

variable {q : Text → Prop}

theorem Attribute.allStrings_toJson_iff {a : Attribute} : AllStrings q a.toJson ↔ ∀ piece ∈ a.texts, q piece := by
  obtain ⟨key, value⟩ := a
  cases key <;> simp [toJson, texts, AllStrings, Json.AllItems]

theorem Category.allStrings_toJson_iff (hq : ∀ t : Text, t ⊆ tokenCharacters → q t) {c : Category} :
    AllStrings q c.toJson ↔ ∀ piece ∈ c.texts, q piece := by
  have hname : q "name" := hq _ (by decide)
  have hattributes : q "attributes" := hq _ (by decide)
  simp only [toJson, texts, AllStrings, Json.AllMembers, allItems_map_iff, Attribute.allStrings_toJson_iff, hname,
    hattributes, true_and, and_true, List.forall_mem_cons, List.forall_mem_flatMap]

theorem Module.allStrings_toJson_iff (hq : ∀ t : Text, t ⊆ tokenCharacters → q t) {m : Module} :
    AllStrings q m.toJson ↔ ∀ piece ∈ m.texts, q piece := by
  have hnamespace : q "namespace" := hq _ (by decide)
  have htype : q "type" := hq _ (by decide)
  have hcategories : q "categories" := hq _ (by decide)
  simp only [toJson, texts, AllStrings, Json.AllMembers, allItems_map_iff, Category.allStrings_toJson_iff hq,
    hnamespace, htype, hcategories, true_and, and_true, List.forall_mem_cons, List.forall_mem_flatMap]

end Strings

/-- Whether the names of a manifest and the texts of the modules in its buckets hold no surrogate. -/
def Manifest.IsUnicode (m : Manifest) : Prop :=
  (∀ name ∈ Assoc.keys m.buckets, name.isUnicode) ∧
    ∀ reference ∈ m.references, ∀ piece ∈ (m.module reference).texts, piece.isUnicode

theorem Manifest.IsUnicode.members {m : Manifest} (hm : m.IsUnicode) {name : Text} :
    ∀ found ∈ m.members name, ∀ piece ∈ found.texts, piece.isUnicode := by
  intro found hfound
  obtain ⟨reference, hreference, rfl⟩ := exists_reference_of_mem_members hfound
  exact hm.2 reference hreference

namespace Artifact

/-! ## Strings of both layers -/

section Strings

variable {q : Text → Prop}

theorem allStrings_bucketJson_iff (m : Manifest) (bucket : Text × List (Fin m.modules.length)) :
    AllStrings q (bucketJson m bucket) ↔ q bucket.1 := by
  have hreferences : AllItems q (bucket.2.map fun reference => Json.integer (m.rank reference)) :=
    allItems_map_iff.2 fun _ _ => trivial
  simp only [bucketJson, AllStrings, AllItems, hreferences, and_true]

/-- The strings of a payload are the names of its manifest and the texts of its modules. -/
theorem allStrings_payloadJson_iff (hq : ∀ t : Text, t ⊆ tokenCharacters → q t) (m : Manifest) :
    AllStrings q (payloadJson m) ↔ (∀ name ∈ Assoc.keys m.buckets, q name) ∧
      ∀ reference ∈ m.references, ∀ piece ∈ (m.module reference).texts, q piece := by
  have hmodules : q "modules" := hq _ (by decide)
  have hindex : q "index" := hq _ (by decide)
  simp only [payloadJson, AllStrings, Json.AllMembers, allItems_map_iff, Module.allStrings_toJson_iff hq,
    allStrings_bucketJson_iff, Manifest.firstUses, Manifest.mem_firstOccurrences, Assoc.keys, List.forall_mem_map,
    hmodules, hindex, true_and, and_true]
  exact And.comm

theorem allStrings_documentJson_iff (hq : ∀ t : Text, t ⊆ tokenCharacters → q t) (chunks : List Text) :
    AllStrings q (documentJson chunks) ↔ ∀ chunk ∈ chunks, q chunk := by
  have hgenerator : q "generator" ∧ q generator := ⟨hq _ (by decide), hq _ (by decide)⟩
  have hversion : q "version" := hq _ (by decide)
  have hchunks : q "chunks" := hq _ (by decide)
  simp only [documentJson, AllStrings, Json.AllMembers, allItems_map_iff, hgenerator, hversion, hchunks, true_and,
    and_true]

end Strings

/-! ## Characters -/

section Characters

variable {p : CodePoint → Prop} {m : Manifest} {chunkSize : Int} {text : Text}

/-- An artifact holds the characters of tokens, of modules and of names. -/
theorem forall_mem_of_encode (htoken : ∀ c ∈ tokenCharacters, p c) (hencode : encode m chunkSize = .ok text)
    (hmodules : ∀ found ∈ m.modules, ∀ piece ∈ found.texts, ∀ c ∈ piece, p c)
    (hnames : ∀ name ∈ Assoc.keys m.buckets, ∀ c ∈ name, p c) : ∀ c ∈ text, p c := by
  obtain ⟨chunks, rfl, hchunks⟩ := exists_chunks_of_encode hencode
  have hline : ∀ c ∈ Json.lineCharacters, p c := fun c hc => htoken c (Json.mem_tokenCharacters_of_mem_line hc)
  have hq : ∀ t : Text, t ⊆ tokenCharacters → ∀ c ∈ t, 0x20 ≤ c.toNat → p c :=
    fun t ht c hc _ => htoken c (ht hc)
  have hpayload : ∀ c ∈ payload m, p c := by
    apply Json.forall_mem_written hline (Json.Layout.all_dense p) _ 0 (isPlain_payloadJson m)
    refine (allStrings_payloadJson_iff hq m).2 ⟨fun name hname c hc _ => hnames name hname c hc, ?_⟩
    exact fun reference _ piece hpiece c hc _ => hmodules _ (List.getElem_mem reference.isLt) piece hpiece c hc
  have hdocument : ∀ c ∈ (documentJson chunks).indented .unicode, p c := by
    apply Json.forall_mem_written hline (Json.Layout.all_lines htoken) _ 0 (isPlain_documentJson chunks)
    refine (allStrings_documentJson_iff hq chunks).2 fun chunk hchunk c hc _ => ?_
    exact hpayload c (hchunks ▸ List.mem_flatten_of_mem hchunk hc)
  exact List.forall_mem_append.2 ⟨hdocument, fun c hc => htoken c (by revert c; decide)⟩

/-- An artifact holds a surrogate exactly if its manifest does. -/
theorem isUnicode_iff_of_encode (hencode : encode m chunkSize = .ok text) : text.isUnicode ↔ m.IsUnicode := by
  obtain ⟨chunks, rfl, hchunks⟩ := exists_chunks_of_encode hencode
  have htoken : ∀ c ∈ tokenCharacters, c.isSurrogate = false := by decide
  have hq : ∀ t : Text, t ⊆ tokenCharacters → t.isUnicode :=
    fun t ht => Text.isUnicode_iff.2 fun c hc => htoken c (ht hc)
  have hpayload : (payload m).isUnicode ↔ m.IsUnicode := by
    rw [payload, Json.compact, Json.isUnicode_written_iff (isPlain_payloadJson m) (Json.Layout.all_dense _),
      allStrings_payloadJson_iff hq, Manifest.IsUnicode]
  have hdocument : ((documentJson chunks).indented .unicode).isUnicode ↔ ∀ chunk ∈ chunks, chunk.isUnicode := by
    rw [Json.indented, Json.isUnicode_written_iff (isPlain_documentJson chunks) (Json.Layout.all_lines htoken),
      allStrings_documentJson_iff hq]
  calc (documentText chunks).isUnicode
      ↔ ((documentJson chunks).indented .unicode).isUnicode := by
        rw [documentText, Text.isUnicode_append_iff, and_iff_left (Text.isUnicode_ofString _)]
    _ ↔ (payload m).isUnicode := by
        simp only [hdocument, ← hchunks, Text.isUnicode_iff, List.mem_flatten]
        constructor
        · rintro h c ⟨chunk, hchunk, hc⟩
          exact h chunk hchunk c hc
        · intro h chunk hchunk c hc
          exact h c ⟨chunk, hchunk, hc⟩
    _ ↔ m.IsUnicode := hpayload

end Characters

/-! ## Manifests of declared modules -/

section Declared

variable {modules : List Module} (h : ∀ m ∈ modules, ∃ t, Source.declaredModule? t = some m)

include h

/-- The names of a manifest hold the characters of modules if these have been declared. -/
theorem isModuleChar_of_mem_keys {name : Text} (hname : name ∈ Assoc.keys (Manifest.build modules).buckets) :
    ∀ c ∈ name, Source.isModuleChar c := by
  obtain ⟨m, hm, category, hcategory, rfl⟩ := Manifest.mem_keys_build.1 hname
  obtain ⟨t, ht⟩ := h m hm
  apply Source.isModuleChar_of_declaredModule? ht
  have hmem : category.name ∈ m.categories.flatMap Category.texts :=
    List.mem_flatMap.2 ⟨category, hcategory, List.mem_cons_self⟩
  exact List.mem_cons_of_mem _ (List.mem_cons_of_mem _ hmem)

/-- A manifest of declared modules holds no surrogate. -/
theorem isUnicode_build : (Manifest.build modules).IsUnicode := by
  refine ⟨fun name hname => ?_, fun reference _ => ?_⟩
  · rw [Text.isUnicode_iff]
    exact fun c hc => Source.isSurrogate_of_isModuleChar (isModuleChar_of_mem_keys h hname c hc)
  · obtain ⟨t, ht⟩ := h _ (List.getElem_mem reference.isLt)
    exact Source.isUnicode_of_declaredModule? ht

/-- The artifact of declared modules declares no module. -/
theorem declaredModule?_of_encode {chunkSize : Int} {text : Text}
    (hencode : encode (Manifest.build modules) chunkSize = .ok text) : Source.declaredModule? text = none := by
  have hmodule : ∀ c, Source.isModuleChar c → c ≠ .scalar ';' := by
    rintro c hc rfl
    exact absurd hc (by decide)
  have htexts : ∀ m ∈ modules, ∀ piece ∈ m.texts, ∀ c ∈ piece, c ≠ .scalar ';' := by
    intro m hm piece hpiece c hc
    obtain ⟨t, ht⟩ := h m hm
    exact hmodule c (Source.isModuleChar_of_declaredModule? ht piece hpiece c hc)
  apply Source.declaredModule?_of_not_mem
  intro hmem
  exact forall_mem_of_encode (by decide) hencode htexts
    (fun name hname c hc => hmodule c (isModuleChar_of_mem_keys h hname c hc)) _ hmem rfl

end Declared

end Artifact

end ModuleCatalog
