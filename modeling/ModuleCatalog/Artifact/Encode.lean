import ModuleCatalog.Manifest.Basic
import ModuleCatalog.Json.Printer

/-!
# The written form of a manifest

An artifact is an indented JSON document. Its chunks, put together, are a compact JSON payload, which
holds each module once and the buckets as lists of places. Chunks keep the lines short, and their
boundaries carry no meaning.
-/

namespace ModuleCatalog

namespace Attribute

/-- Key, or null, and value. -/
def toJson (a : Attribute) : Json :=
  .array [(match a.key with | none => .null | some key => .string key), .string a.value]

end Attribute

def Category.toJson (c : Category) : Json :=
  .object [("name", .string c.name), ("attributes", .array (c.attributes.map Attribute.toJson))]

def Module.toJson (m : Module) : Json :=
  .object [("namespace", .string m.enclosing), ("type", .string m.typeName),
    ("categories", .array (m.categories.map Category.toJson))]

namespace Artifact

def generator : Text := "modmanifest"

def version : Int := 1

def defaultChunkSize : Int := 70

/-- A bucket with the places of its members among the first uses. -/
def bucketJson (m : Manifest) (bucket : Text × List (Fin m.modules.length)) : Json :=
  .array [.string bucket.1, .array (bucket.2.map fun reference => .integer (m.rank reference))]

/-- The modules in the order of first use, and the buckets. -/
def payloadJson (m : Manifest) : Json :=
  .object [("modules", .array (m.firstUses.map fun reference => (m.module reference).toJson)),
    ("index", .array (m.buckets.map (bucketJson m)))]

/-- The payload as one line. -/
def payload (m : Manifest) : Text := (payloadJson m).compact .unicode

/-- Consecutive pieces of a size, the last one perhaps shorter. The first argument bounds their
number. -/
def piecesOf (size : Nat) : Nat → Text → List Text
  | 0, _ => []
  | fuel + 1, t => if t.isEmpty then [] else t.take size :: piecesOf size fuel (t.drop size)

/-- Consecutive pieces of a size, which is positive. -/
def chunksOf (size : Nat) (t : Text) : List Text := piecesOf size t.length t

def documentJson (chunks : List Text) : Json :=
  .object [("generator", .string generator), ("version", .integer version),
    ("chunks", .array (chunks.map .string))]

/-- The text of an artifact with given chunks. -/
def documentText (chunks : List Text) : Text := (documentJson chunks).indented .unicode ++ "\n"

/-- Chunks without characters cannot hold a payload. -/
inductive EncodeError
  | chunkSizeNotPositive
  deriving DecidableEq, Repr

def EncodeError.message : EncodeError → Text
  | .chunkSizeNotPositive => "chunk_size must be positive"

/-- The artifact of a manifest. -/
def encode (m : Manifest) (chunkSize : Int) : Except EncodeError Text :=
  if chunkSize < 1 then .error .chunkSizeNotPositive
  else .ok (documentText (chunksOf chunkSize.toNat (payload m)))

theorem encode_of_lt {chunkSize : Int} (h : chunkSize < 1) (m : Manifest) :
    encode m chunkSize = .error .chunkSizeNotPositive := if_pos h

theorem encode_of_le {chunkSize : Int} (h : 1 ≤ chunkSize) (m : Manifest) :
    encode m chunkSize = .ok (documentText (chunksOf chunkSize.toNat (payload m))) := if_neg (by omega)

end Artifact

end ModuleCatalog
