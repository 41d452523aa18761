import ModuleCatalog.Proofs.Config.Reading

/-!
# The settings of a configuration file

Each of the five keys of a file has values of its own kind, and is left at its default if it is absent. A mapping is
read as a configuration exactly if every key that is present has a value of its kind; then the configuration has what
these values stand for, and any other mapping is reported as a fault of the configuration. Other keys do not matter.
-/

namespace ModuleCatalog.Config

open FileSystem

/-! ## Kinds of values -/

/-- The text that a text or a number stands for; a truth value stands for none. -/
inductive IsTextOf : Yaml.Value → Text → Prop
  | text (t : Text) : IsTextOf (.text t) t
  | integer (i : Int) : IsTextOf (.integer i) (Decimal.ofInt i)
  | float (x : Binary64) : IsTextOf (.float x) x.toText

theorem isTextOf_iff {value : Yaml.Value} {t : Text} : IsTextOf value t ↔ textOf? value = some t := by
  constructor
  · rintro (_ | _ | _) <;> rfl
  · intro h
    cases value with
    | text | integer | float =>
      obtain rfl := Option.some.inj h
      constructor
    | null | boolean | bytes | timestamp | collection => cases h

/-- The extension that a value stands for: what is left of a text without the blanks around it and the dots in front,
if anything is. -/
inductive IsExtensionOf (default : Text) : Yaml.Value → Text → Prop
  | null : IsExtensionOf default .null default
  | text {value : Yaml.Value} {t : Text} (h : IsTextOf value t) (hne : extensionOf t ≠ []) :
    IsExtensionOf default value (extensionOf t)

/-- The output path that a value stands for. -/
inductive IsOutputOf (fs : FileSystem) (default : Path) : Yaml.Value → Path → Prop
  | null : IsOutputOf fs default .null default
  | empty {value : Yaml.Value} (h : IsTextOf value []) : IsOutputOf fs default value default
  | text {value : Yaml.Value} {t : Text} {path : Path} (h : IsTextOf value t) (hne : t ≠ [])
    (hpath : fs.expandHome (Path.parse t) = .ok path) : IsOutputOf fs default value path

/-- The positive number that an integer or the text of one stands for. -/
inductive IsCountOf : Yaml.Value → Int → Prop
  | integer {i : Int} (h : 1 ≤ i) : IsCountOf (.integer i) i
  | text {t : Text} {i : Int} (hread : IntegerText.read? 10 t = some i) (h : 1 ≤ i) : IsCountOf (.text t) i

/-- The names that a value lists: none, one, or the texts of all items of a list. Binary data count as the list of
their bytes. -/
inductive ListsNames (d : Yaml.Document) : Yaml.Value → List Text → Prop
  | null : ListsNames d .null []
  | text (t : Text) : ListsNames d (.text t) [t]
  | items {value : Yaml.Value} {items : List Yaml.Value} {names : List Text}
    (hitems : d.collection? value = some (.sequence items)) (h : List.Forall₂ IsTextOf items names) :
    ListsNames d value names
  | noPairs {value : Yaml.Value} (h : d.collection? value = some (.pairs [])) : ListsNames d value []
  | bytes (bytes : Bytes) : ListsNames d (.bytes bytes) (bytes.map fun b => Decimal.ofNat b.toNat)

/-- The excluded names that a value stands for, each once. -/
def IsExcludedOf (d : Yaml.Document) (value : Yaml.Value) (excluded : List Text) : Prop :=
  ∃ names, ListsNames d value names ∧ excluded = Manifest.firstOccurrences names

/-- What a key gives that may be absent: its default, or what its value stands for. -/
inductive Gives {α : Type} (IsOf : Yaml.Value → α → Prop) (default : α) : Option Yaml.Value → α → Prop
  | absent : Gives IsOf default none default
  | present {value : Yaml.Value} {a : α} (h : IsOf value a) : Gives IsOf default (some value) a

section Gives

variable {α : Type} {default a : α} {IsOf : Yaml.Value → α → Prop}

theorem gives_none_iff : Gives IsOf default none a ↔ a = default := by
  constructor
  · rintro ⟨⟩
    rfl
  · rintro rfl
    exact .absent

theorem gives_some_iff {v : Yaml.Value} : Gives IsOf default (some v) a ↔ IsOf v a := by
  constructor
  · rintro (_ | h)
    exact h
  · exact .present

end Gives

/-! ## Reading one key -/

section Readers

variable {fs : FileSystem} {d : Yaml.Document} {c c' : Config} {value : Option Yaml.Value}

/-- A value that stands for a text is read as that text; null is none. -/
theorem text?_some_eq_ok_iff {field : Text} {v : Yaml.Value} {written : Option Text} :
    text? field (some v) = .ok written ↔ (v = .null ∧ written = none) ∨ ∃ t, IsTextOf v t ∧ written = some t := by
  cases v with
  | null => simp [text?, isTextOf_iff, textOf?, eq_comm]
  | text | integer | float => simp [text?, isTextOf_iff, textOf?, eq_comm]
  | boolean | bytes | timestamp | collection => simp [text?, isTextOf_iff, textOf?]

theorem readExtension_eq_ok_iff : readExtension c value = .ok c' ↔
    ∃ extension, Gives (IsExtensionOf c.extension) c.extension value extension ∧ { c with extension } = c' := by
  cases value with
  | none => simp [readExtension, text?, gives_none_iff, bind, Except.bind]
  | some v =>
    simp only [readExtension, bind_eq_ok_iff, text?_some_eq_ok_iff, gives_some_iff]
    constructor
    · rintro ⟨written, ⟨rfl, rfl⟩ | ⟨t, htext, rfl⟩, h⟩
      · exact ⟨c.extension, .null, Except.ok.inj h⟩
      · dsimp only at h
        split at h
        · cases h
        · next hne => exact ⟨extensionOf t, .text htext (mt List.isEmpty_iff.2 hne), Except.ok.inj h⟩
    · rintro ⟨extension, h, rfl⟩
      cases h with
      | null => exact ⟨none, .inl ⟨rfl, rfl⟩, rfl⟩
      | @text v t htext hne => exact ⟨some t, .inr ⟨t, htext, rfl⟩, if_neg (mt List.isEmpty_iff.1 hne)⟩

theorem names_eq_ok_iff {items : List Yaml.Value} {listed : List Text} :
    names items = .ok listed ↔ List.Forall₂ IsTextOf items listed := by
  rw [names, mapM_eq_ok_iff]
  refine ⟨List.Forall₂.imp fun item t h => ?_, List.Forall₂.imp fun item t h => ?_⟩
  · cases htext : textOf? item with
    | none => simp [htext] at h
    | some written =>
      rw [isTextOf_iff, htext]
      simpa [htext] using h
  · simp [isTextOf_iff.1 h]

theorem exists_collection {v : Yaml.Value} {collection : Yaml.Collection} (h : d.collection? v = some collection) :
    ∃ id, v = .collection id := by
  cases v with
  | collection id => exact ⟨id, rfl⟩
  | null | boolean | integer | float | text | bytes | timestamp => cases h

theorem excludedNames_eq_ok_iff {v : Yaml.Value} {listed : List Text} :
    excludedNames d v = .ok listed ↔ ListsNames d v listed := by
  constructor
  · intro h
    unfold excludedNames at h
    split at h
    · rw [← Except.ok.inj h]
      exact .null
    · rw [← Except.ok.inj h]
      exact .text _
    · rw [← Except.ok.inj h]
      exact .bytes _
    · split at h
      · next hitems => exact .items hitems (names_eq_ok_iff.1 h)
      · next entries hpairs =>
        split at h
        · next hempty =>
          rw [← Except.ok.inj h]
          rw [List.isEmpty_iff.1 hempty] at hpairs
          exact .noPairs hpairs
        · cases h
      · cases h
  · intro h
    cases h with
    | null => rfl
    | text t => rfl
    | bytes bytes => rfl
    | items hitems hnames =>
      obtain ⟨id, rfl⟩ := exists_collection hitems
      simp only [excludedNames, hitems]
      exact names_eq_ok_iff.2 hnames
    | noPairs hpairs =>
      obtain ⟨id, rfl⟩ := exists_collection hpairs
      simp only [excludedNames, hpairs]
      rfl

theorem readExcluded_eq_ok_iff : readExcluded d c value = .ok c' ↔
    ∃ excluded, Gives (IsExcludedOf d) c.excluded value excluded ∧ { c with excluded } = c' := by
  cases value with
  | none => simp [readExcluded, gives_none_iff]
  | some v =>
    simp only [readExcluded, bind_eq_ok_iff, excludedNames_eq_ok_iff, gives_some_iff, IsExcludedOf]
    constructor
    · rintro ⟨listed, hlisted, h⟩
      exact ⟨_, ⟨listed, hlisted, rfl⟩, Except.ok.inj h⟩
    · rintro ⟨excluded, ⟨listed, hlisted, rfl⟩, rfl⟩
      exact ⟨listed, hlisted, rfl⟩

theorem readOutput_eq_ok_iff : readOutput fs c value = .ok c' ↔
    ∃ output, Gives (IsOutputOf fs c.output) c.output value output ∧ { c with output } = c' := by
  cases value with
  | none => simp [readOutput, text?, gives_none_iff, bind, Except.bind, Except.mapError]
  | some v =>
    simp only [readOutput, bind_eq_ok_iff, mapError_eq_ok_iff, text?_some_eq_ok_iff, gives_some_iff]
    constructor
    · rintro ⟨written, ⟨rfl, rfl⟩ | ⟨t, htext, rfl⟩, h⟩
      · exact ⟨c.output, .null, Except.ok.inj h⟩
      · cases t with
        | nil => exact ⟨c.output, .empty htext, Except.ok.inj h⟩
        | cons first rest =>
          obtain ⟨path, hpath, h⟩ := bind_eq_ok_iff.1 h
          exact ⟨path, .text htext (List.cons_ne_nil _ _) (mapError_eq_ok_iff.1 hpath), Except.ok.inj h⟩
    · rintro ⟨output, h, rfl⟩
      cases h with
      | null => exact ⟨none, .inl ⟨rfl, rfl⟩, rfl⟩
      | empty htext => exact ⟨some [], .inr ⟨[], htext, rfl⟩, rfl⟩
      | @text v t path htext hne hpath =>
        obtain ⟨first, rest, rfl⟩ := List.exists_cons_of_ne_nil hne
        exact ⟨some (first :: rest), .inr ⟨_, htext, rfl⟩, bind_eq_ok_iff.2 ⟨_, mapError_eq_ok_iff.2 hpath, rfl⟩⟩

theorem isCountOf_iff {v : Yaml.Value} {i : Int} : IsCountOf v i ↔ integer? v = some i ∧ 1 ≤ i := by
  constructor
  · rintro (h | ⟨hread, h⟩)
    · exact ⟨rfl, h⟩
    · exact ⟨hread, h⟩
  · rintro ⟨hinteger, h⟩
    cases v with
    | integer j =>
      obtain rfl := Option.some.inj hinteger
      exact .integer h
    | text t => exact .text hinteger h
    | null | boolean | float | bytes | timestamp | collection => cases hinteger

theorem positive_eq_ok_iff {field : Text} {v : Yaml.Value} {i : Int} : positive field v = .ok i ↔ IsCountOf v i := by
  rw [isCountOf_iff, positive]
  cases hinteger : integer? v with
  | none => simp
  | some j =>
    by_cases hj : j < 1
    · simp only [hj, if_true, reduceCtorEq, Option.some.injEq, false_iff]
      omega
    · simp only [hj, if_false, Except.ok.injEq, Option.some.injEq]
      omega

theorem readChunkSize_eq_ok_iff : readChunkSize c value = .ok c' ↔
    ∃ chunkSize, Gives IsCountOf c.chunkSize value chunkSize ∧ { c with chunkSize } = c' := by
  cases value with
  | none => simp [readChunkSize, gives_none_iff]
  | some v => simp [readChunkSize, bind_eq_ok_iff, positive_eq_ok_iff, gives_some_iff]

theorem readWorkers_eq_ok_iff : readWorkers c value = .ok c' ↔
    ∃ workers, Gives IsCountOf c.workers value workers ∧ { c with workers } = c' := by
  cases value with
  | none => simp [readWorkers, gives_none_iff]
  | some v => simp [readWorkers, bind_eq_ok_iff, positive_eq_ok_iff, gives_some_iff]

end Readers

/-! ## Mappings -/

/-- What a configuration has that is read from the entries of a mapping. -/
structure Describes (fs : FileSystem) (d : Yaml.Document) (entries : List (Yaml.Value × Yaml.Value)) (c : Config) :
    Prop where
  extension : Gives (IsExtensionOf "php") "php" (Yaml.entry? "source_extension" entries) c.extension
  excluded : Gives (IsExcludedOf d) [".", "..", "test", "tests", "logs"] (Yaml.entry? "exclude_dirs" entries) c.excluded
  output : Gives (IsOutputOf fs "vendor/modules.json") "vendor/modules.json" (Yaml.entry? "output" entries) c.output
  chunkSize : Gives IsCountOf 70 (Yaml.entry? "chunk_size" entries) c.chunkSize
  workers : Gives IsCountOf 1 (Yaml.entry? "workers" entries) c.workers

section Entries

variable {fs : FileSystem} {d : Yaml.Document} {entries : List (Yaml.Value × Yaml.Value)} {c : Config}

/-- The entries of a mapping are read as what they describe. -/
theorem ofEntries_eq_ok_iff : ofEntries fs d entries = .ok c ↔ Describes fs d entries c := by
  simp only [ofEntries, bind_eq_ok_iff, mapError_eq_ok_iff, readExtension_eq_ok_iff, readExcluded_eq_ok_iff,
    readOutput_eq_ok_iff, readChunkSize_eq_ok_iff, readWorkers_eq_ok_iff]
  constructor
  · rintro ⟨_, ⟨extension, hextension, rfl⟩, _, ⟨excluded, hexcluded, rfl⟩, _, ⟨output, houtput, rfl⟩, _,
      ⟨chunkSize, hchunkSize, rfl⟩, workers, hworkers, rfl⟩
    exact ⟨hextension, hexcluded, houtput, hchunkSize, hworkers⟩
  · rintro ⟨hextension, hexcluded, houtput, hchunkSize, hworkers⟩
    exact ⟨_, ⟨_, hextension, rfl⟩, _, ⟨_, hexcluded, rfl⟩, _, ⟨_, houtput, rfl⟩, _, ⟨_, hchunkSize, rfl⟩, _,
      hworkers, rfl⟩

end Entries

/-! ## Files -/

/-- Whether the configuration file for a path holds a mapping of some entries. -/
def HoldsMapping (fs : FileSystem) (path : Path) (d : Yaml.Document) (entries : List (Yaml.Value × Yaml.Value)) : Prop :=
  ∃ file content t, locate fs path = .ok file ∧ fs.read file = .ok content ∧ HasText content t ∧
    Yaml.Document.parse t = .ok d ∧ d.collection? d.root = some (.mapping entries)

section Files

variable {fs : FileSystem} {path : Path} {d : Yaml.Document} {entries : List (Yaml.Value × Yaml.Value)}

theorem ofDocument_eq (hroot : d.collection? d.root = some (.mapping entries)) :
    ofDocument fs d = ofEntries fs d entries := by
  obtain ⟨id, hid⟩ := exists_collection hroot
  have hnothing : d.isNothing d.root = entries.isEmpty := by
    rw [hid] at hroot ⊢
    simp only [Yaml.Document.isNothing, hroot, Option.map_some, Option.getD_some, Yaml.Collection.isEmpty]
  cases entries with
  | nil => simp only [ofDocument, hnothing, List.isEmpty_nil, if_true]
  | cons entry entries => simp only [ofDocument, hnothing, List.isEmpty_cons, Bool.false_eq_true, if_false, hroot]

theorem HoldsMapping.load_eq (h : HoldsMapping fs path d entries) : load fs path = ofEntries fs d entries := by
  obtain ⟨file, content, t, hfile, hread, htext, hparse, hroot⟩ := h
  rw [load_of_textOf hfile hread, htext.decoded]
  simp only [ofText, htext.notBlank, Bool.false_eq_true, if_false, hparse, ofDocument_eq hroot]

end Files

theorem holdsMapping_configTree {content : Bytes} {t : Text} {d : Yaml.Document}
    {entries : List (Yaml.Value × Yaml.Value)} (htext : HasText content t) (hparse : Yaml.Document.parse t = .ok d)
    (hroot : d.collection? d.root = some (.mapping entries)) : HoldsMapping (configTree content) "." d entries :=
  ⟨_, content, t, locate_configTree content, read_configTree content, htext, hparse, hroot⟩

/-- The document of a mapping that gives a text to one key. -/
def settingDocument (key value : Text) : Yaml.Document :=
  ⟨.collection 0, [(0, .mapping [(.text key, .text value)])]⟩

theorem holdsMapping_of_settingTokens {content : Bytes} {t key value : Text} (hkey : key ∈ knownKeys)
    (htext : HasText content t) (h : Yaml.TokenStream.ofText t = ⟨settingTokens key value, none⟩) :
    HoldsMapping (configTree content) "." (settingDocument key value) [(.text key, .text value)] :=
  holdsMapping_configTree htext (parse_of_settingTokens hkey h) rfl

end ModuleCatalog.Config
