import ModuleCatalog.Config.Basic
import ModuleCatalog.Failure
import ModuleCatalog.FileSystem.TextFile
import ModuleCatalog.Yaml.Value.Document

/-!
# Reading the configuration

A configuration file is a YAML mapping; an empty file, or one whose document counts as nothing, is an
empty mapping. Every key may be left out, and unknown keys are ignored. Texts may be given as numbers,
and positive numbers as texts, but never as truth values.
-/

namespace ModuleCatalog.Config

/-- A value that can stand for a text: a text or a number. -/
def textOf? : Yaml.Value → Option Text
  | .text value => some value
  | .integer value => some (Decimal.ofInt value)
  | .float value => some value.toText
  | _ => none

/-- The text under a key; null counts as none. -/
def text? (field : Text) (value : Option Yaml.Value) : Except Problem (Option Text) :=
  match value with
  | none | some .null => .ok none
  | some value =>
    match textOf? value with
    | some t => .ok (some t)
    | none => .error (.notText field)

/-- The integer that a value stands for. -/
def integer? : Yaml.Value → Option Int
  | .integer value => some value
  | .text value => IntegerText.read? 10 value
  | _ => none

/-- A positive integer. -/
def positive (field : Text) (value : Yaml.Value) : Except Problem Int :=
  match integer? value with
  | some i => if i < 1 then .error (.notPositive field) else .ok i
  | none => .error (.notPositive field)

/-- The texts of all items of a list. -/
def names (items : List Yaml.Value) : Except Problem (List Text) :=
  items.mapM fun item =>
    match textOf? item with
    | some t => .ok t
    | none => .error .excludedNotName

/-- The names of excluded directories: none, one, or those of a list. Binary data are a list of
numbers. -/
def excludedNames (d : Yaml.Document) (value : Yaml.Value) : Except Problem (List Text) :=
  match value with
  | .null => .ok []
  | .text value => .ok [value]
  | .bytes bytes => .ok (bytes.map fun b => Decimal.ofNat b.toNat)
  | value =>
    match d.collection? value with
    | some (.sequence items) => names items
    | some (.pairs entries) => if entries.isEmpty then .ok [] else .error .excludedNotName
    | _ => .error .excludedNotList

/-- An extension without the blanks around it and the dots in front. -/
def extensionOf (t : Text) : Text := t.trim.dropWhile (· = .scalar '.')

def readExtension (c : Config) (value : Option Yaml.Value) : Except Problem Config := do
  match ← text? "source_extension" value with
  | none => .ok c
  | some t =>
    let extension := extensionOf t
    if extension.isEmpty then .error .emptyExtension else .ok { c with extension }

def readExcluded (d : Yaml.Document) (c : Config) (value : Option Yaml.Value) :
    Except Problem Config := do
  match value with
  | none => .ok c
  | some value => .ok { c with excluded := Manifest.firstOccurrences (← excludedNames d value) }

def readChunkSize (c : Config) (value : Option Yaml.Value) : Except Problem Config := do
  match value with
  | none => .ok c
  | some value => .ok { c with chunkSize := ← positive "chunk_size" value }

def readWorkers (c : Config) (value : Option Yaml.Value) : Except Problem Config := do
  match value with
  | none => .ok c
  | some value => .ok { c with workers := ← positive "workers" value }

/-- The output path; an empty text leaves the default. -/
def readOutput (fs : FileSystem) (c : Config) (value : Option Yaml.Value) : Except Failure Config := do
  match ← (text? "output" value).mapError Failure.configuration with
  | none | some [] => .ok c
  | some t => .ok { c with output := ← (fs.expandHome (Path.parse t)).mapError Failure.path }

/-- The configuration in the entries of a mapping. -/
def ofEntries (fs : FileSystem) (d : Yaml.Document) (entries : List (Yaml.Value × Yaml.Value)) :
    Except Failure Config := do
  let c : Config := {}
  let c ← (readExtension c (Yaml.entry? "source_extension" entries)).mapError Failure.configuration
  let c ← (readExcluded d c (Yaml.entry? "exclude_dirs" entries)).mapError Failure.configuration
  let c ← readOutput fs c (Yaml.entry? "output" entries)
  let c ← (readChunkSize c (Yaml.entry? "chunk_size" entries)).mapError Failure.configuration
  (readWorkers c (Yaml.entry? "workers" entries)).mapError Failure.configuration

/-- The configuration in a document. -/
def ofDocument (fs : FileSystem) (d : Yaml.Document) : Except Failure Config :=
  if d.isNothing d.root then ofEntries fs d []
  else
    match d.collection? d.root with
    | some (.mapping entries) => ofEntries fs d entries
    | _ => .error (.configuration .notMapping)

/-- The configuration in the text of a file of a name. -/
def ofText (fs : FileSystem) (file : Text) (t : Text) : Except Failure Config :=
  if t.trim.isEmpty then .ok {}
  else
    match Yaml.Document.parse t with
    | .ok d => ofDocument fs d
    | .error .malformed => .error (.configuration (.malformed file))
    | .error problem => .error (.value problem)

/-- The resolved path of the configuration file that a path stands for: a file, or the one of a
directory. -/
def locate (fs : FileSystem) (path : Path) : Except Failure Path := do
  let path ← (fs.expandHome path).mapError Failure.path
  let inside ← (fs.isDirectory path).mapError Failure.files
  (fs.resolve (if inside then path.child fileName else path)).mapError Failure.path

/-- The configuration at a path; the default one if there is no file. -/
def load (fs : FileSystem) (path : Path) : Except Failure Config := do
  let file ← locate fs path
  if !(← (fs.isPresent file).mapError Failure.files) then .ok {}
  else
    match fs.readText file with
    | .ok t => ofText fs file.name t
    | .error (.refused cause) =>
      if cause.isFault then .error (.configuration (.unreadable file cause)) else .error (.files cause)
    | .error (.undecodable cause) => .error (.undecodable cause)

/-- The configuration for a source tree: the one at an explicit path, or else the one of the root if
that is a directory. -/
def loadForRoot (fs : FileSystem) (root : Path) (explicit : Option Path) : Except Failure Config := do
  match explicit with
  | some path => load fs path
  | none =>
    if ← (fs.isDirectory root).mapError Failure.files then load fs root else .ok {}

end ModuleCatalog.Config
