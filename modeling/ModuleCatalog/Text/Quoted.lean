import ModuleCatalog.Text.Printable

/-!
# Quoted texts

Messages show a text between quotation marks. The single mark is used unless the text holds one and
no double mark. The mark in use and the backslash are escaped, line ends and tabs have short escapes,
and every other character that is not printable is shown by its number.
-/

namespace ModuleCatalog

/-- A number in base sixteen with lower-case letters, with zeros in front up to a width. -/
def hexadecimal (width n : Nat) : Text :=
  let digits := Nat.toDigits 16 n
  (List.replicate (width - digits.length) '0' ++ digits).map .scalar

namespace Text

/-- A character by its number: two, four or eight hexadecimal digits. -/
def escapeNumber (n : Nat) : Text :=
  if n < 0x100 then "\\x" ++ hexadecimal 2 n
  else if n < 0x10000 then "\\u" ++ hexadecimal 4 n
  else "\\U" ++ hexadecimal 8 n

/-- One character between quotation marks `mark`. -/
def quoteChar (mark : Char) (c : CodePoint) : Text :=
  if c = .scalar mark ∨ c = .scalar '\\' then [.scalar '\\', c]
  else if c = .scalar '\n' then "\\n"
  else if c = .scalar '\r' then "\\r"
  else if c = .scalar '\t' then "\\t"
  else if c.isPrintable then [c]
  else escapeNumber c.toNat

/-- A text as a message shows it. -/
def quoted (t : Text) : Text :=
  let mark := if t.contains (.scalar '\'') && !t.contains (.scalar '"') then '"' else '\''
  CodePoint.scalar mark :: t.flatMap (quoteChar mark) ++ [CodePoint.scalar mark]

end Text

end ModuleCatalog
