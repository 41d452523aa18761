import ModuleCatalog.Text.Utf8

/-!
# The encoding of a JSON document

A document that is received as bytes is in UTF-8, UTF-16 or UTF-32. A byte order mark tells which; without
one, the null bytes among the first four bytes do, because a document begins with a character of ASCII.
Surrogates may stand alone in each of the encodings.
-/

namespace ModuleCatalog.Json

inductive ByteOrder
  | big
  | little
  deriving DecidableEq, Repr

inductive Encoding
  | utf8
  | utf16 (order : ByteOrder)
  | utf32 (order : ByteOrder)
  deriving DecidableEq, Repr

namespace Encoding

/-! ## Finding the encoding -/

/-- The marks in front of a document, the longer one of two that begin alike first. -/
def marks : List (Bytes × Encoding) :=
  [([0x00, 0x00, 0xFE, 0xFF], .utf32 .big), ([0xFF, 0xFE, 0x00, 0x00], .utf32 .little),
   ([0xFE, 0xFF], .utf16 .big), ([0xFF, 0xFE], .utf16 .little), ([0xEF, 0xBB, 0xBF], .utf8)]

/-- The encoding of a document without a mark. -/
def ofNulls : Bytes → Encoding
  | a :: b :: c :: d :: _ =>
    if a = 0 then (if b = 0 then .utf32 .big else .utf16 .big)
    else if b = 0 then (if c = 0 ∧ d = 0 then .utf32 .little else .utf16 .little)
    else .utf8
  | [a, b] => if a = 0 then .utf16 .big else if b = 0 then .utf16 .little else .utf8
  | _ => .utf8

/-- The encoding of a document, and the document without its mark. -/
def detect (bytes : Bytes) : Encoding × Bytes :=
  match marks.find? fun (mark, _) => mark.isPrefixOf bytes with
  | some (mark, encoding) => (encoding, bytes.drop mark.length)
  | none => (ofNulls bytes, bytes)

/-! ## Decoding -/

/-- The surrogate in three bytes of the form that UTF-8 would give it. -/
def surrogate? : Bytes → Option CodePoint
  | [a, b, c] =>
    let low (byte : UInt8) : Nat := byte.toNat - 0x80
    if a = 0xED ∧ 0xA0 ≤ b ∧ b < 0xC0 ∧ 0x80 ≤ c ∧ c < 0xC0 then
      CodePoint.ofNat? (0xD000 + low b * 64 + low c)
    else none
  | _ => none

/-- The text in UTF-8 bytes. The first argument bounds the number of surrogates. -/
def decode8? : Nat → Bytes → Option Text
  | 0, _ => none
  | fuel + 1, bytes =>
    match Utf8.decode bytes with
    | .ok t => some t
    | .error e => do
      let before ← (Utf8.decode (bytes.take e.position)).toOption
      let rest := bytes.drop e.position
      let c ← surrogate? (rest.take 3)
      let after ← decode8? fuel (rest.drop 3)
      some (before ++ c :: after)

/-- Put the two halves of pairs together. -/
def joinHalves : List CodePoint → Text
  | high :: low :: rest =>
    if high.isHighSurrogate && low.isLowSurrogate then
      .ofNat (0x10000 + (high.toNat - 0xD800) * 0x400 + (low.toNat - 0xDC00)) :: joinHalves rest
    else high :: joinHalves (low :: rest)
  | rest => rest

/-- The number in bytes of an order. -/
def number (order : ByteOrder) (bytes : Bytes) : Nat :=
  let inOrder : Bytes := match order with
    | .big => bytes
    | .little => bytes.reverse
  inOrder.foldl (fun n byte => n * 256 + byte.toNat) 0

/-- The numbers in UTF-16 bytes. -/
def units16? (order : ByteOrder) : Bytes → Option Text
  | [] => some []
  | a :: b :: rest => do
    let c ← CodePoint.ofNat? (number order [a, b])
    some (c :: (← units16? order rest))
  | _ => none

/-- The numbers in UTF-32 bytes. -/
def units32? (order : ByteOrder) : Bytes → Option Text
  | [] => some []
  | a :: b :: c :: d :: rest => do
    let first ← CodePoint.ofNat? (number order [a, b, c, d])
    some (first :: (← units32? order rest))
  | _ => none

/-- The text in bytes of an encoding. -/
def decode? (encoding : Encoding) (bytes : Bytes) : Option Text :=
  match encoding with
  | .utf8 => decode8? (bytes.length + 1) bytes
  | .utf16 order => (units16? order bytes).map joinHalves
  | .utf32 order => units32? order bytes

end Encoding

/-- The text of a document. -/
def textOf? (bytes : Bytes) : Option Text :=
  let (encoding, bytes) := Encoding.detect bytes
  encoding.decode? bytes

end ModuleCatalog.Json
