import ModuleCatalog.Number.Decimal
import ModuleCatalog.Text.Quoted
import ModuleCatalog.Text.Utf8

/-!
# Messages about UTF-8

A refusal names the offending byte or character and its place if there is one, and the first and the
last place if there are more.
-/

namespace ModuleCatalog.Utf8

/-- One place, or the first and the last one of several. -/
def placeRange (position length : Nat) : Text :=
  if length ≤ 1 then Decimal.ofNat position
  else Decimal.ofNat position ++ "-" ++ Decimal.ofNat (position + length - 1)

def DecodeError.message (e : DecodeError) : Text :=
  let subject : Text :=
    if e.length ≤ 1 then "byte 0x" ++ hexadecimal 2 e.first.toNat else "bytes"
  "'utf-8' codec can't decode " ++ subject ++ " in position " ++ placeRange e.position e.length ++
    ": " ++ e.reason.message

def EncodeError.message (e : EncodeError) : Text :=
  let subject : Text :=
    if e.length ≤ 1 then "character '" ++ Text.escapeNumber e.first.toNat ++ "'" else "characters"
  "'utf-8' codec can't encode " ++ subject ++ " in position " ++ placeRange e.position e.length ++
    ": surrogates not allowed"

end ModuleCatalog.Utf8
