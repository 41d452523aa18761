import ModuleCatalog.Text.Basic
import ModuleCatalog.Text.Range

/-!
# Blanks

The blank characters are the separators and the controls that count as white space: 29 in all. The
zero-width space and the byte order mark are not blank.
-/

namespace ModuleCatalog

namespace CodePoint

def blankRanges : RangeTable :=
  [(0x9, 0xD), (0x1C, 0x20), (0x85, 0x85), (0xA0, 0xA0), (0x1680, 0x1680), (0x2000, 0x200A),
   (0x2028, 0x2029), (0x202F, 0x202F), (0x205F, 0x205F), (0x3000, 0x3000)]

def isBlank (c : CodePoint) : Bool := blankRanges.contains c.toNat

end CodePoint

namespace Text

def trimLeft (t : Text) : Text := t.dropWhile CodePoint.isBlank

def trimRight (t : Text) : Text := (t.reverse.dropWhile CodePoint.isBlank).reverse

/-- A text without the blanks at its two ends. -/
def trim (t : Text) : Text := trimRight (trimLeft t)

/-- Whether a blank is one of the four information separators. -/
def isInformationSeparator (c : CodePoint) : Bool := 0x1C ≤ c.toNat && c.toNat ≤ 0x1F

/-- A text without the blanks at its two ends, up to the first information separator on each side. Such
blanks may stand around a number. -/
def trimAround (t : Text) : Text :=
  let isPadding (c : CodePoint) : Bool := c.isBlank && !isInformationSeparator c
  ((t.dropWhile isPadding).reverse.dropWhile isPadding).reverse

/-- Whether trimming changes nothing. -/
def IsTrimmed (t : Text) : Prop :=
  (∀ c, t.head? = some c → c.isBlank = false) ∧ (∀ c, t.getLast? = some c → c.isBlank = false)

end Text

end ModuleCatalog
