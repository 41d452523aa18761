import ModuleCatalog.FileSystem.Change
import ModuleCatalog.Text.Newline
import ModuleCatalog.Text.Utf8

/-!
# Text files

The content of a text file is UTF-8, and any of the three line ends reads as LF.
-/

namespace ModuleCatalog.FileSystem

/-- Why a file cannot be read as a text. -/
inductive TextError
  | refused (cause : Error)
  | undecodable (cause : Utf8.DecodeError)
  deriving Repr

/-- The text that bytes stand for. -/
def textOf (bytes : Bytes) : Except Utf8.DecodeError Text := (Utf8.decode bytes).map Text.foldNewlines

/-- The text in the file at a path. -/
def readText (fs : FileSystem) (path : Path) : Except TextError Text := do
  let bytes ← (fs.read path).mapError TextError.refused
  (textOf bytes).mapError TextError.undecodable

end ModuleCatalog.FileSystem
