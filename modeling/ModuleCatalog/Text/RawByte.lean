import ModuleCatalog.Text.Utf8

/-!
# Bytes that are no UTF-8

Names of files are bytes, and these need not be UTF-8. A byte that is part of no character is read as the
surrogate with the number `DC00` more, and such a surrogate is written as its byte; so all bytes can be
read and written back. Other surrogates stand for nothing. Different texts may be written as the same
bytes, but these are read as one of them.
-/

namespace ModuleCatalog.Utf8

/-- The surrogate that a byte is read as. -/
def rawByte (byte : UInt8) : CodePoint := .ofNat (0xDC00 + byte.toNat)

/-- The byte that a surrogate is written as. -/
def rawByte? : CodePoint → Option UInt8
  | .scalar _ => none
  | .surrogate offset =>
    if 0x480 ≤ offset.val ∧ offset.val < 0x500 then some (UInt8.ofNat (offset.val - 0x400)) else none

/-- Write from a position. -/
def encodeRawFrom : Nat → Text → Except EncodeError Bytes
  | _, [] => .ok []
  | position, .scalar c :: t => (encodeRawFrom (position + 1) t).map (encodeChar c ++ ·)
  | position, .surrogate offset :: t =>
    match rawByte? (.surrogate offset) with
    | some byte => (encodeRawFrom (position + 1) t).map (byte :: ·)
    | none => .error ⟨position, 1 + (t.takeWhile CodePoint.isSurrogate).length, .surrogate offset⟩

/-- The bytes that a text is written as. -/
def encodeRaw (t : Text) : Except EncodeError Bytes := encodeRawFrom 0 t

/-- The text that bytes are read as. -/
def decodeRaw (bytes : Bytes) : Text := decodeReplacing (fun refused => refused.map rawByte) bytes

/-- The text that the bytes of a text are read as. -/
def asRead (t : Text) : Text :=
  if t.isUnicode then t
  else
    match encodeRaw t with
    | .ok bytes => decodeRaw bytes
    | .error _ => t

end ModuleCatalog.Utf8
