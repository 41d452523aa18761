import ModuleCatalog.Text.Digit
import ModuleCatalog.Text.Utf8

/-!
# Request targets

The target of a request is a path with an optional query. Percent escapes of the path are decoded when it
is received; bytes that are not UTF-8 become the replacement character.
-/

namespace ModuleCatalog.Service

/-- A decoded path and the query as it was written. -/
structure Target where
  path : Text
  query : Option Text
  deriving DecidableEq, Repr

/-! ## Percent escapes -/

/-- A piece of a text with escapes. -/
inductive Piece
  | plain (c : CodePoint)
  | escaped (byte : UInt8)
  deriving DecidableEq, Repr

/-- The pieces of a text; a percent sign without two hexadecimal digits behind it is plain. -/
def pieces : Text → List Piece
  | .scalar '%' :: a :: b :: t =>
    match a.hexValue?, b.hexValue? with
    | some high, some low => .escaped (UInt8.ofNat (high * 16 + low)) :: pieces t
    | _, _ => .plain '%' :: pieces (a :: b :: t)
  | c :: t => .plain c :: pieces t
  | [] => []

/-- The text that pieces stand for, behind some escaped bytes in reverse order. Neighbouring escaped
bytes are decoded together. -/
def joinPieces (pending : Bytes) : List Piece → Text
  | [] => Utf8.decodeLossy pending.reverse
  | .escaped byte :: rest => joinPieces (byte :: pending) rest
  | .plain c :: rest => Utf8.decodeLossy pending.reverse ++ c :: joinPieces [] rest

/-- A text with its percent escapes decoded. -/
def percentDecode (t : Text) : Text := joinPieces [] (pieces t)

/-- A byte as a percent escape. -/
def escapeByte (byte : UInt8) : Text :=
  [.scalar '%', upperHexDigit (byte.toNat / 16), upperHexDigit (byte.toNat % 16)]
where
  upperHexDigit (n : Nat) : CodePoint := ("0123456789ABCDEF" : Text).getD n '0'

/-- Letters, digits and the four marks that are never escaped. -/
def isUnreserved (c : CodePoint) : Bool :=
  match c with
  | .scalar c => c.isAlphanum || c = '_' || c = '.' || c = '-' || c = '~'
  | .surrogate _ => false

/-- A text in which everything but unreserved and some other characters is escaped. -/
def percentEncode (others : Text) (t : Text) : Text :=
  t.flatMap fun c =>
    if isUnreserved c || others.contains c then [c] else (Utf8.encodeLossy [c]).flatMap escapeByte

/-! ## Targets -/

/-- What stands before a separator, and what follows it. -/
def cut (separator : CodePoint) (t : Text) : Text × Option Text :=
  match Text.splitFirst? separator t with
  | none => (t, none)
  | some (before, after) => (before, some after)

/-- The target of a request as it is received. -/
def Target.received (written : Text) : Target :=
  let (path, query) := cut '?' written
  ⟨percentDecode path, query⟩

end ModuleCatalog.Service
