import ModuleCatalog.FileSystem.Resolve

/-!
# Changes to a file system

Each change is one request. It either happens or leaves everything as it was; only making a directory
together with its parents consists of several requests, of which the first ones may have happened when a
later one fails.
-/

namespace ModuleCatalog.FileSystem

/-- The content of the file at a path. -/
def read (fs : FileSystem) (path : Path) : Except Error Bytes := do
  let text := path.toText
  match ← fs.locate .target text with
  | .entry _ (.file content _) => .ok content
  | .entry _ (.directory _) => .error (.fault .isDirectory [text])
  | .entry _ (.special (some fault)) => .error (.fault fault [])
  | .entry _ _ => .ok []
  | .free .. => .error (.fault .notFound [text])

/-- The entries of the directory at a path, in no particular order. -/
def list (fs : FileSystem) (path : Path) : Except Error (List (Text × Node)) := do
  let text := path.toText
  match ← fs.locate .target text with
  | .entry _ (.directory entries) => .ok entries
  | .entry .. => .error (.fault .notDirectory [text])
  | .free .. => .error (.fault .notFound [text])

/-! ## Directories -/

def makeDirectory (fs : FileSystem) (path : Path) : Except Error FileSystem := do
  let text := path.toText
  match ← fs.locate .itself text with
  | .entry .. => .error (.fault .exists [text])
  | .free directory name => .ok (fs.put directory name (.directory []))

/-- Make a directory unless there is one. -/
def ensureDirectory (fs : FileSystem) (path : Path) : FileSystem × Except Error Unit :=
  match fs.makeDirectory path with
  | .ok fs => (fs, .ok ())
  | .error (.fault .notFound paths) => (fs, .error (.fault .notFound paths))
  | .error (.fault fault paths) =>
    match fs.isDirectory path with
    | .ok true => (fs, .ok ())
    | .ok false => (fs, .error (.fault fault paths))
    | .error e => (fs, .error e)
  | .error e => (fs, .error e)

/-- Make a directory and the missing ones above it. -/
def ensureDirectories (fs : FileSystem) (path : Path) : FileSystem × Except Error Unit :=
  match fs.ensureDirectory path with
  | (fs, .error (.fault .notFound paths)) =>
    if _h : path.parts = [] then (fs, .error (.fault .notFound paths))
    else
      match ensureDirectories fs path.parent with
      | (fs, .ok ()) => fs.ensureDirectory path
      | (fs, .error e) => (fs, .error e)
  | result => result
termination_by path.parts.length
decreasing_by
  have : 0 < path.parts.length := List.length_pos_iff.2 ‹_›
  simp only [Path.parent, List.length_dropLast]
  omega

/-! ## Links -/

/-- Make a link to a target, which need not exist. -/
def makeLink (fs : FileSystem) (path : Path) (target : Text) : Except Error FileSystem := do
  let paths := [target, path.toText]
  checkText target
  checkText path.toText
  if target.isEmpty then .error (.fault .notFound paths)
  else if byteLength target ≥ pathBytesLimit then .error (.fault .nameTooLong paths)
  else
    match fs.lookup .itself path.toText with
    | .ok (.free directory name) => .ok (fs.put directory name (.link (Utf8.asRead target)))
    | .ok (.entry ..) => .error (.fault .exists paths)
    | .error fault => .error (.fault fault paths)

/-! ## Temporary files -/

/-- The characters of random names. -/
def nameAlphabet : Text := "abcdefghijklmnopqrstuvwxyz0123456789_"

/-- The last `count` characters of a number in the alphabet of random names. -/
def nameOf : Nat → Nat → Text
  | 0, _ => []
  | count + 1, n => nameOf count (n / nameAlphabet.length) ++ [nameAlphabet.getD (n % nameAlphabet.length) 'a']

/-- The name of the temporary file with a number for a target. -/
def temporaryName (target : Path) (n : Nat) : Text := "." ++ target.name ++ "." ++ nameOf 8 n ++ ".tmp"

/-- Make an empty temporary file beside a target, under the first free name from a number on. The first
argument bounds the number of names that are tried. -/
def createFrom (fs : FileSystem) (target : Path) : Nat → Nat → Except Error (Path × FileSystem)
  | 0, n => .error (.fault .exists [temporaryName target n])
  | tries + 1, n => do
    let path := (fs.absolute target.parent).child (temporaryName target n)
    match ← fs.locate .itself path.toText with
    | .entry .. => createFrom fs target tries (n + 1)
    | .free directory name => .ok (path, fs.put directory name (.file [] 0o600))

/-- The number of entries of the directory at a path. -/
def entryCount (fs : FileSystem) (path : Path) : Nat :=
  match fs.list path with
  | .ok entries => entries.length
  | .error _ => 0

/-- Make an empty temporary file beside a target; there is always a free name. -/
def createTemporary (fs : FileSystem) (target : Path) : Except Error (Path × FileSystem) :=
  fs.createFrom target (fs.entryCount (fs.absolute target.parent) + 1) 0

/-! ## Files -/

/-- Change the file at a path. -/
def changeFile (fs : FileSystem) (path : Path) (f : Bytes → Nat → Node) : Except Error FileSystem := do
  let text := path.toText
  match ← fs.locate .target text with
  | .entry location (.file content mode) => .ok (fs.putAt location (f content mode))
  | .entry _ (.directory _) => .error (.fault .isDirectory [text])
  | .entry .. => .ok fs
  | .free .. => .error (.fault .notFound [text])

/-- Give a file another content. -/
def write (fs : FileSystem) (path : Path) (content : Bytes) : Except Error FileSystem :=
  fs.changeFile path fun _ mode => .file content mode

/-- Give a file other permissions. -/
def permit (fs : FileSystem) (path : Path) (mode : Nat) : Except Error FileSystem :=
  fs.changeFile path fun content _ => .file content mode

/-- Whether a path ends in a name, and not in dots or at the root. -/
def endsInName (path : Path) : Bool :=
  match path.parts.getLast? with
  | none => false
  | some name => name ≠ ".."

/-- Move a file to another path; a file or link that is there is replaced. -/
def replace (fs : FileSystem) (path target : Path) : Except Error FileSystem := do
  let paths := [path.toText, target.toText]
  let failing (fault : Fault) : Error := .fault fault paths
  checkText path.toText
  checkText target.toText
  let source ← (fs.lookup .itself path.toText).mapError failing
  let destination ← (fs.lookup .itself target.toText).mapError failing
  if !endsInName target then .error (failing .busy)
  else
    match source, destination with
    | .free .., _ => .error (failing .notFound)
    | .entry .., .entry _ (.directory _) => .error (failing .isDirectory)
    | .entry location node, .entry other _ =>
      if location = other then .ok fs
      else .ok ((fs.dropAt location).putAt other node)
    | .entry location node, .free directory name =>
      .ok ((fs.dropAt location).put directory name node)

/-- Remove a file or link. -/
def remove (fs : FileSystem) (path : Path) : Except Error FileSystem := do
  let text := path.toText
  match ← fs.locate .itself text with
  | .entry _ (.directory _) => .error (.fault .isDirectory [text])
  | .entry location _ => .ok (fs.dropAt location)
  | .free .. => .error (.fault .notFound [text])

/-- Make sure that there is a file at a path to write to; a new one is empty. -/
def openFile (fs : FileSystem) (path : Path) : Except Error FileSystem := do
  let text := path.toText
  match ← fs.locate .fileTarget text with
  | .entry _ (.directory _) => .error (.fault .isDirectory [text])
  | .entry .. => .ok fs
  | .free directory name => .ok (fs.put directory name (.file [] 0o644))

/-- Write bytes behind the content of a file. -/
def append (fs : FileSystem) (path : Path) (bytes : Bytes) : Except Error FileSystem :=
  fs.changeFile path fun content mode => .file (content ++ bytes) mode

end ModuleCatalog.FileSystem
