import ModuleCatalog.FileSystem.Basic

/-!
# Parts and differences of file systems

A file system may be known in part: what is found to be at a location is inserted there. The difference of
two trees lists the directories and files that the second one has and the first one has not, parents
first.
-/

namespace ModuleCatalog

/-- Put a node at a location, together with directories above it. -/
def Node.insert (added : Node) : List Text → Node → Node
  | [], _ => added
  | name :: names, node =>
    let below := (Assoc.get? name node.entries).getD (.directory [])
    .directory (Assoc.put name (added.insert names below) node.entries)

namespace FileSystem

/-- Put a node at a location, together with directories above it. -/
def insert (fs : FileSystem) (location : List Text) (node : Node) : FileSystem :=
  { fs with top := node.insert location fs.top }

/-- The node at a location. -/
def at? (fs : FileSystem) (location : List Text) : Option Node := fs.top.at? location

/-- Put a node at a location unless there is one. -/
def insertNew (fs : FileSystem) (location : List Text) (node : Node) : FileSystem :=
  match fs.at? location with
  | some _ => fs
  | none => fs.insert location node

/-- Something that a tree has and another one has not. -/
inductive Addition
  | directory (location : List Text)
  | file (location : List Text) (content : Bytes) (mode : Nat)
  deriving Repr

mutual

/-- What a node at a location adds to an earlier one. -/
def additionsAt (location : List Text) (old : Option Node) : Node → List Addition
  | .file content mode =>
    match old with
    | some (.file before _) => if before = content then [] else [.file location content mode]
    | _ => [.file location content mode]
  | .directory entries =>
    match old with
    | some (.directory before) => additionsIn location before entries
    | _ => .directory location :: additionsIn location [] entries
  | .link _ => []
  | .special _ => []

/-- What the entries of a directory at a location add to earlier ones. -/
def additionsIn (location : List Text) (before : List (Text × Node)) : List (Text × Node) → List Addition
  | [] => []
  | (name, node) :: entries =>
    additionsAt (location ++ [name]) (Assoc.get? name before) node ++ additionsIn location before entries

end

/-- What a file system adds to an earlier one. -/
def additions (before after : FileSystem) : List Addition := additionsAt [] (some before.top) after.top

end FileSystem

end ModuleCatalog
