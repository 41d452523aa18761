import ModuleCatalog.FileSystem.Fault
import ModuleCatalog.FileSystem.Path

/-!
# File systems

A file system is a tree of nodes under a directory, with a working directory. The location of a node is
the list of names that lead to it from the top. Links hold the text of a path. Special files have no
content; reading one may be a fault.
-/

namespace ModuleCatalog

inductive Node
  | file (content : Bytes) (mode : Nat)
  | directory (entries : List (Text × Node))
  | link (target : Text)
  | special (reading : Option FileSystem.Fault)

namespace Node

instance : Inhabited Node := ⟨.directory []⟩

def isDirectory : Node → Bool
  | .directory _ => true
  | _ => false

/-- Whether a node counts as a file. Special nodes do if they cannot be read. -/
def isFile : Node → Bool
  | .file .. => true
  | .special reading => reading.isSome
  | _ => false

/-- The permissions of a node. -/
def mode : Node → Nat
  | .file _ mode => mode
  | .directory _ => 0o755
  | .link _ => 0o777
  | .special _ => 0o644

/-- The entries of a directory, none of anything else. -/
def entries : Node → List (Text × Node)
  | .directory entries => entries
  | _ => []

/-- The node at a location. -/
def at? : List Text → Node → Option Node
  | [], node => some node
  | name :: names, node => (Assoc.get? name node.entries).bind (at? names)

end Node

/-- Leave out the entry of a name. -/
def Assoc.erase {α : Type} (name : Text) (entries : List (Text × α)) : List (Text × α) :=
  entries.filter fun entry => entry.1 ≠ name

/-- Change the entries of the directory at a location; where there is none, nothing changes. -/
def Node.change (f : List (Text × Node) → List (Text × Node)) : List Text → Node → Node
  | [], .directory entries => .directory (f entries)
  | name :: names, .directory entries =>
    .directory (entries.map fun (n, node) => if n = name then (n, change f names node) else (n, node))
  | _, node => node

structure FileSystem where
  top : Node
  working : List Text
  homes : Homes

namespace FileSystem

/-- Put a node under a name into the directory at a location, in place of what has that name. -/
def put (fs : FileSystem) (directory : List Text) (name : Text) (node : Node) : FileSystem :=
  { fs with top := fs.top.change (Assoc.put name node) directory }

/-- Take the entry of a name out of the directory at a location. -/
def drop (fs : FileSystem) (directory : List Text) (name : Text) : FileSystem :=
  { fs with top := fs.top.change (Assoc.erase name) directory }

/-- Put a node at a location. -/
def putAt (fs : FileSystem) (location : List Text) (node : Node) : FileSystem :=
  match location.getLast? with
  | none => fs
  | some name => fs.put location.dropLast name node

/-- Take away the node at a location. -/
def dropAt (fs : FileSystem) (location : List Text) : FileSystem :=
  fs.drop location.dropLast (location.getLast?.getD [])

/-- The working directory as a path. -/
def workingPath (fs : FileSystem) : Path := ⟨.slash, fs.working⟩

end FileSystem

end ModuleCatalog
