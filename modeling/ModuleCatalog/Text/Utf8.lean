import ModuleCatalog.Text.Basic

/-!
# UTF-8

Bytes are decoded strictly: overlong forms, surrogates and numbers past the last code point are
refused. A refusal names the bytes that make it certain that no character can follow, beginning with
the first byte of the unfinished character. Encoding refuses the first run of surrogates.
-/

namespace ModuleCatalog

abbrev Bytes := List UInt8

namespace Utf8

/-- Why bytes are not UTF-8. -/
inductive Reason
  | invalidStart
  | invalidContinuation
  | unexpectedEnd
  deriving DecidableEq, Repr

def Reason.message : Reason → Text
  | .invalidStart => "invalid start byte"
  | .invalidContinuation => "invalid continuation byte"
  | .unexpectedEnd => "unexpected end of data"

/-- The bytes from `position` on, `first` and `length - 1` more, begin no character. -/
structure DecodeError where
  reason : Reason
  position : Nat
  length : Nat
  first : UInt8
  deriving DecidableEq, Repr

/-- A run of `length` surrogates, the first of them `first`, at `position`. -/
structure EncodeError where
  position : Nat
  length : Nat
  first : CodePoint
  deriving DecidableEq, Repr

/-- An unfinished character: its first byte and where it stands, the bits read so far, the number of
bytes still owed and the bounds of the next one. -/
structure Pending where
  position : Nat
  first : UInt8
  bits : Nat
  owed : Nat
  low : Nat
  high : Nat
  deriving DecidableEq, Repr

/-- What a first byte begins: a whole character, an unfinished one, or nothing. -/
def lead (position : Nat) (byte : UInt8) : Option (CodePoint ⊕ Pending) :=
  let b := byte.toNat
  if b < 0x80 then some (.inl (.scalar (Char.ofNat b)))
  else if 0xC2 ≤ b ∧ b ≤ 0xDF then some (.inr ⟨position, byte, b - 0xC0, 1, 0x80, 0xBF⟩)
  else if b = 0xE0 then some (.inr ⟨position, byte, 0, 2, 0xA0, 0xBF⟩)
  else if b = 0xED then some (.inr ⟨position, byte, 0xD, 2, 0x80, 0x9F⟩)
  else if 0xE1 ≤ b ∧ b ≤ 0xEF then some (.inr ⟨position, byte, b - 0xE0, 2, 0x80, 0xBF⟩)
  else if b = 0xF0 then some (.inr ⟨position, byte, 0, 3, 0x90, 0xBF⟩)
  else if 0xF1 ≤ b ∧ b ≤ 0xF3 then some (.inr ⟨position, byte, b - 0xF0, 3, 0x80, 0xBF⟩)
  else if b = 0xF4 then some (.inr ⟨position, byte, 4, 3, 0x80, 0x8F⟩)
  else none

/-- Decode from a position, with a character begun or not. -/
def decodeFrom : Nat → Option Pending → Bytes → Except DecodeError Text
  | _, none, [] => .ok []
  | position, some p, [] => .error ⟨.unexpectedEnd, p.position, position - p.position, p.first⟩
  | position, none, byte :: bytes =>
    match lead position byte with
    | none => .error ⟨.invalidStart, position, 1, byte⟩
    | some (.inl c) => (decodeFrom (position + 1) none bytes).map (c :: ·)
    | some (.inr p) => decodeFrom (position + 1) (some p) bytes
  | position, some p, byte :: bytes =>
    let b := byte.toNat
    if p.low ≤ b ∧ b ≤ p.high then
      let bits := p.bits * 64 + (b - 0x80)
      if p.owed ≤ 1 then
        (decodeFrom (position + 1) none bytes).map (CodePoint.scalar (Char.ofNat bits) :: ·)
      else
        decodeFrom (position + 1) (some { p with bits, owed := p.owed - 1, low := 0x80, high := 0xBF })
          bytes
    else .error ⟨.invalidContinuation, p.position, position - p.position, p.first⟩

/-- The text that bytes hold. -/
def decode (bytes : Bytes) : Except DecodeError Text := decodeFrom 0 none bytes

/-- The bytes of a character, one to four of them. -/
def encodeChar (c : Char) : Bytes :=
  let n := c.toNat
  let tail (shift : Nat) : UInt8 := UInt8.ofNat (0x80 + n / shift % 64)
  if n < 0x80 then [UInt8.ofNat n]
  else if n < 0x800 then [UInt8.ofNat (0xC0 + n / 64), tail 1]
  else if n < 0x10000 then [UInt8.ofNat (0xE0 + n / 4096), tail 64, tail 1]
  else [UInt8.ofNat (0xF0 + n / 262144), tail 4096, tail 64, tail 1]

/-- Encode from a position. -/
def encodeFrom : Nat → Text → Except EncodeError Bytes
  | _, [] => .ok []
  | position, .scalar c :: t => (encodeFrom (position + 1) t).map (encodeChar c ++ ·)
  | position, .surrogate offset :: t =>
    .error ⟨position, 1 + (t.takeWhile CodePoint.isSurrogate).length, .surrogate offset⟩

/-- The bytes of a text without surrogates. -/
def encode (t : Text) : Except EncodeError Bytes := encodeFrom 0 t

/-- The bytes of a text in which every surrogate is written as a question mark. -/
def encodeLossy (t : Text) : Bytes :=
  t.flatMap fun
    | .scalar c => encodeChar c
    | .surrogate _ => [0x3F]

/-- Decode, with something else for the bytes of each refusal. -/
def decodeReplacing (replacement : Bytes → Text) (bytes : Bytes) : Text := go (bytes.length + 1) bytes
where
  go : Nat → Bytes → Text
    | 0, _ => []
    | fuel + 1, bytes =>
      match decode bytes with
      | .ok t => t
      | .error e =>
        let before := match decode (bytes.take e.position) with
          | .ok t => t
          | .error _ => []
        let rest := bytes.drop e.position
        before ++ replacement (rest.take e.length) ++ go fuel (rest.drop e.length)

/-- Decode, with one replacement character for the bytes of each refusal. -/
def decodeLossy : Bytes → Text := decodeReplacing fun _ => [.scalar '\uFFFD']

end Utf8

end ModuleCatalog
