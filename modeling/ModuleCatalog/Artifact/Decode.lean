import ModuleCatalog.Artifact.Encode
import ModuleCatalog.Json.Reader
import ModuleCatalog.Json.Display

/-!
# Reading an artifact

A document is an artifact if its version equals one and its chunks are strings that, put together, hold
a payload. Every module entry of the payload has to be well formed, whether it is referred to or not,
and every reference has to be a place of the table. Further members are ignored.
-/

namespace ModuleCatalog.Artifact

/-- Why a text is no artifact. -/
inductive DecodeError
  | documentNotJson (error : Json.Error) (text : Text)
  | documentNotObject
  | unsupportedVersion (version : Json)
  | chunksNotStrings
  | payloadNotJson (error : Json.Error) (text : Text)
  | payloadNotObject
  | payloadIncomplete
  | moduleNotObject
  | moduleIncomplete
  | categoryNotObject
  | categoryIncomplete
  | malformedAttribute (category : Text)
  | malformedBucket
  | duplicateBucket (name : Text)
  | invalidReference (reference : Json) (bucket : Text)
  deriving Repr

def DecodeError.message : DecodeError → Text
  | .documentNotJson error text => "Artifact is not valid JSON: " ++ error.message text
  | .documentNotObject => "Artifact must contain a JSON object"
  | .unsupportedVersion version => "Unsupported artifact version: " ++ version.display
  | .chunksNotStrings => "Artifact chunks must be a list of strings"
  | .payloadNotJson error text => "Artifact payload is not valid JSON: " ++ error.message text
  | .payloadNotObject => "Artifact payload must be a JSON object"
  | .payloadIncomplete => "Artifact payload requires 'modules' and 'index' lists"
  | .moduleNotObject => "Module entries must be JSON objects"
  | .moduleIncomplete => "Module entries require 'namespace', 'type' and 'categories'"
  | .categoryNotObject => "Category entries must be JSON objects"
  | .categoryIncomplete => "Category entries require 'name' and 'attributes'"
  | .malformedAttribute category => "Malformed attribute in category " ++ Text.quoted category
  | .malformedBucket => "Malformed category bucket in artifact"
  | .duplicateBucket name => "Duplicate category bucket " ++ Text.quoted name ++ " in artifact"
  | .invalidReference reference bucket =>
    "Invalid module reference " ++ reference.display ++ " in bucket " ++ Text.quoted bucket

def readAttribute (category : Text) : Json → Except DecodeError Attribute
  | .array [.null, .string value] => .ok ⟨none, value⟩
  | .array [.string key, .string value] => .ok ⟨some key, value⟩
  | _ => .error (.malformedAttribute category)

def readCategory (entry : Json) : Except DecodeError Category :=
  match entry.object? with
  | none => .error .categoryNotObject
  | some members =>
    match Json.field? "name" members, Json.field? "attributes" members with
    | some (.string name), some (.array attributes) =>
      (attributes.mapM (readAttribute name)).map fun attributes => ⟨name, attributes⟩
    | _, _ => .error .categoryIncomplete

def readModule (entry : Json) : Except DecodeError Module :=
  match entry.object? with
  | none => .error .moduleNotObject
  | some members =>
    match Json.field? "namespace" members, Json.field? "type" members,
      Json.field? "categories" members with
    | some (.string enclosing), some (.string typeName), some (.array categories) =>
      (categories.mapM readCategory).map fun categories => ⟨enclosing, typeName, categories⟩
    | _, _, _ => .error .moduleIncomplete

/-- A reference into a table of a size. -/
def readReference (size : Nat) (bucket : Text) (reference : Json) : Except DecodeError (Fin size) :=
  match reference with
  | .integer (.ofNat n) =>
    if h : n < size then .ok ⟨n, h⟩ else .error (.invalidReference reference bucket)
  | _ => .error (.invalidReference reference bucket)

/-- The buckets, of which `taken` are the names already in use. -/
def readBuckets (size : Nat) : List Text → List Json → Except DecodeError (List (Text × List (Fin size)))
  | _, [] => .ok []
  | taken, .array [.string name, .array references] :: entries =>
    if name ∈ taken then .error (.duplicateBucket name)
    else do
      let references ← references.mapM (readReference size name)
      let buckets ← readBuckets size (name :: taken) entries
      .ok ((name, references) :: buckets)
  | _, _ :: _ => .error .malformedBucket

theorem nodup_readBuckets {size : Nat} {taken : List Text} {entries : List Json}
    {buckets : List (Text × List (Fin size))} (h : readBuckets size taken entries = .ok buckets) :
    (Assoc.keys buckets).Nodup ∧ ∀ name ∈ Assoc.keys buckets, name ∉ taken := by
  fun_induction readBuckets size taken entries generalizing buckets with
  | case1 taken => cases h; exact ⟨List.nodup_nil, by simp [Assoc.keys]⟩
  | case2 => cases h
  | case3 taken name references entries hfree ih =>
    cases hreferences : references.mapM (readReference size name) with
    | error e => rw [hreferences] at h; cases h
    | ok places =>
      cases hrest : readBuckets size (name :: taken) entries with
      | error e => rw [hreferences, hrest] at h; cases h
      | ok rest =>
        rw [hreferences, hrest] at h
        cases h
        obtain ⟨hnodup, hfresh⟩ := ih hrest
        rw [Assoc.keys_cons, List.nodup_cons]
        refine ⟨⟨fun hmem => hfresh name hmem (List.mem_cons_self ..), hnodup⟩, ?_⟩
        intro other hother
        rcases List.mem_cons.1 hother with rfl | hother
        · exact hfree
        · exact fun hmem => hfresh other hother (List.mem_cons_of_mem _ hmem)
  | case4 => cases h

/-- The manifest in a payload. -/
def readPayload (value : Json) : Except DecodeError Manifest :=
  match value.object? with
  | none => .error .payloadNotObject
  | some members =>
    match Json.field? "modules" members, Json.field? "index" members with
    | some (.array modules), some (.array index) => do
      let modules ← modules.mapM readModule
      match h : readBuckets modules.length [] index with
      | .error e => .error e
      | .ok buckets => .ok ⟨modules, buckets, (nodup_readBuckets h).1⟩
    | _, _ => .error .payloadIncomplete

/-- The payload in a document. -/
def readDocument (value : Json) : Except DecodeError Text :=
  match value.object? with
  | none => .error .documentNotObject
  | some members =>
    let version := (Json.field? "version" members).getD .null
    if !version.isOne then .error (.unsupportedVersion version)
    else
      match (Json.field? "chunks" members).bind Json.strings? with
      | none => .error .chunksNotStrings
      | some chunks => .ok chunks.flatten

/-- The manifest in an artifact. -/
def decode (text : Text) : Except DecodeError Manifest := do
  let document ← (Json.parse text).mapError (.documentNotJson · text)
  let payload ← readDocument document
  let value ← (Json.parse payload).mapError (.payloadNotJson · payload)
  readPayload value

end ModuleCatalog.Artifact
