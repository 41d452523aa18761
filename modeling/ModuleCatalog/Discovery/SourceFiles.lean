import ModuleCatalog.Config.Basic
import ModuleCatalog.Log.Logged
import ModuleCatalog.Text.Order

/-!
# The source files of a tree

A directory is listed by name, and each subdirectory is listed where its name stands. Subdirectories with
excluded names are left out; the root may have any name. Links to files count as files, and links to
directories are not followed. The order in which a directory keeps its entries does not matter.
-/

namespace ModuleCatalog.Discovery

/-- The logger of discovery. -/
def logger : Text := "walker"

def refuse {α : Type} (path : Path) (cause : FileSystem.Error) : Logged α :=
  .fail (.discovery path (.refused cause))

/-- The file at a path if its name has the right end. -/
def candidate (c : Config) (path : Path) : List Path :=
  if Text.endsWith path.name c.suffix then [path] else []

/-- Whether the link at a path leads to a file. A link that leads nowhere does not; a link that cannot be
followed for another reason is a failure. -/
def leadsToFile (fs : FileSystem) (path : Path) : Logged Bool :=
  match fs.status path.toText with
  | .ok node => pure node.isFile
  | .error (.fault .notFound _) => pure false
  | .error cause => refuse path cause

/-- Whether a path is short enough to be followed. -/
def isShort (path : Path) : Bool := FileSystem.byteLength path.toText < FileSystem.pathBytesLimit

/-- What the entries of a directory contribute, put together in the order of their names. -/
def gather (parts : List (Text × Logged (List Path))) : Logged (List Path) := do
  let parts ← (Text.sortOn Prod.fst parts).mapM Prod.snd
  pure parts.flatten

mutual

/-- The source files that the entry at a path contributes. -/
def filesAt (fs : FileSystem) (c : Config) (path : Path) : Node → Logged (List Path)
  | .file .. => pure (candidate c path)
  | .special reading => pure (if reading.isSome then candidate c path else [])
  | .link _ => do
    if ← leadsToFile fs path then pure (candidate c path) else pure []
  | .directory entries =>
    if path.name ∈ c.excluded then do
      .note logger .debug ("Skipping excluded directory " ++ path.toText)
      pure []
    else if isShort path then gather (filesIn fs c path entries)
    else refuse path (.fault .nameTooLong [path.toText])

/-- The source files that each entry of the directory at a path contributes. -/
def filesIn (fs : FileSystem) (c : Config) (path : Path) :
    List (Text × Node) → List (Text × Logged (List Path))
  | [] => []
  | (name, node) :: entries => (name, filesAt fs c (path.child name) node) :: filesIn fs c path entries

end

/-- The source files below the directory at a path. -/
def sourceFiles (fs : FileSystem) (c : Config) (path : Path) : Logged (List Path) :=
  match fs.list path with
  | .ok entries => gather (filesIn fs c path entries)
  | .error cause => if cause.isFault then refuse path cause else .fail (.files cause)

end ModuleCatalog.Discovery
