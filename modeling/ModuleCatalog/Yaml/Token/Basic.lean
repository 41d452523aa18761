import ModuleCatalog.Text.Basic

/-!
# Tokens of a YAML document

Tokens for the starts and ends of block collections and for keys without a question mark are not
written in the text; they follow from indentation and from the colon behind a key.
-/

namespace ModuleCatalog.Yaml

/-- A tag as it is written: with a handle, or whole. -/
structure TagText where
  handle : Option Text
  suffix : Text
  deriving DecidableEq, Repr

inductive Directive
  | version (major : Nat)
  | tag (handle : Text) (expansion : Text)
  | other
  deriving DecidableEq, Repr

inductive Token
  | directive (directive : Directive)
  | documentStart
  | documentEnd
  | streamEnd
  | blockSequenceStart
  | blockMappingStart
  | blockEnd
  | flowSequenceStart
  | flowSequenceEnd
  | flowMappingStart
  | flowMappingEnd
  | flowEntry
  | blockEntry
  | key
  | value
  | alias (name : Text)
  | anchor (name : Text)
  | tag (tag : TagText)
  | scalar (value : Text) (plain : Bool)
  deriving DecidableEq, Repr

end ModuleCatalog.Yaml
