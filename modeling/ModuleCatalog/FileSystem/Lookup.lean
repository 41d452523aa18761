import ModuleCatalog.FileSystem.Basic

/-!
# From paths to nodes

A path is followed name by name from the top or from the working directory. Links on the way are
followed, up to forty of them; a link at the end is followed on demand. Names have at most 255 bytes and
paths fewer than 4096. Texts that are written as the same bytes are the same path. A path may also lead
to a free name in a directory.
-/

namespace ModuleCatalog.FileSystem

def maxLinks : Nat := 40

def maxNameBytes : Nat := 255

def pathBytesLimit : Nat := 4096

/-- What is asked for at the end of a path: what has the last name, even if it is a link; what links there
lead to; or the same where a file is to be, so that no slash may follow the last name. -/
inductive Goal
  | itself
  | target
  | fileTarget
  deriving DecidableEq, Repr

/-- Where a path leads: to a node, or to a free name. -/
inductive Place
  | entry (location : List Text) (node : Node)
  | free (directory : List Text) (name : Text)

/-- The size of a text in bytes; a surrogate is one byte. -/
def byteLength (t : Text) : Nat := (Utf8.encodeLossy t).length

/-- The names in a path; behind a slash at its end there is an empty one, which asks for a directory. -/
def namesIn (path : Text) : List Text :=
  let names : List Text := (Text.splitOn '/' path).filter (· ≠ [])
  if Text.endsWith path "/" then names ++ [[]] else names

/-- Where a path begins. -/
def startOf (here : List Text) (path : Text) : List Text := if Text.startsWith path "/" then [] else here

/-- Whether the last name, with a slash behind it, is all that is left. -/
def isSlashedName (name : Text) (names : List Text) : Bool :=
  name ≠ [] && name ≠ "." && name ≠ ".." && names = [[]]

/-- Follow names from a location, with some links left to follow. -/
def follow (top : Node) (goal : Goal) : Nat → List Text → List Text → Except Fault Place
  | _, here, [] =>
    match top.at? here with
    | some node => .ok (.entry here node)
    | none => .error .notFound
  | links, here, name :: names =>
    match top.at? here with
    | some (.directory entries) =>
      if name = [] ∨ name = "." then follow top goal links here names
      else if name = ".." then follow top goal links here.dropLast names
      else if goal = .fileTarget && isSlashedName name names then .error .isDirectory
      else if byteLength name > maxNameBytes then .error .nameTooLong
      else
        match Assoc.get? name entries with
        | none => if names.isEmpty then .ok (.free here name) else .error .notFound
        | some (.link target) =>
          if names.isEmpty && goal = .itself then .ok (.entry (here ++ [name]) (.link target))
          else
            match links with
            | 0 => .error .tooManyLinks
            | links + 1 => follow top goal links (startOf here target) (namesIn target ++ names)
        | some _ => follow top goal links (here ++ [name]) names
    | some _ => .error .notDirectory
    | none => .error .notFound
termination_by links _ names => (links, names.length)

/-- Whether a path can be handed to the file system. -/
def checkText (path : Text) : Except Error Unit := do
  let _ ← (Utf8.encodeRaw path).mapError Error.unencodable
  if path.contains (.scalar '\x00') then .error .nulCharacter else .ok ()

/-- Follow a path. -/
def lookup (fs : FileSystem) (goal : Goal) (path : Text) : Except Fault Place :=
  let path := Utf8.asRead path
  if path.isEmpty then .error .notFound
  else if byteLength path ≥ pathBytesLimit then .error .nameTooLong
  else follow fs.top goal maxLinks (startOf fs.working path) (namesIn path)

/-- Follow a path, with an error that names it. -/
def locate (fs : FileSystem) (goal : Goal) (path : Text) : Except Error Place := do
  checkText path
  (fs.lookup goal path).mapError fun fault => .fault fault [path]

/-! ## Questions -/

/-- The node at a path, links followed. -/
def status (fs : FileSystem) (path : Text) : Except Error Node := do
  match ← fs.locate .target path with
  | .entry _ node => .ok node
  | .free .. => .error (.fault .notFound [path])

/-- Faults which mean that there is nothing at a path. -/
def isAbsence : Fault → Bool
  | .notFound | .notDirectory | .tooManyLinks => true
  | _ => false

/-- The node at a path, if there is one. Only faults other than absence are errors. -/
def node? (fs : FileSystem) (path : Text) : Except Error (Option Node) :=
  match fs.status path with
  | .ok node => .ok (some node)
  | .error (.fault fault paths) => if isAbsence fault then .ok none else .error (.fault fault paths)
  | .error _ => .ok none

def isDirectory (fs : FileSystem) (path : Path) : Except Error Bool :=
  (fs.node? path.toText).map fun node => (node.map Node.isDirectory).getD false

def isPresent (fs : FileSystem) (path : Path) : Except Error Bool :=
  (fs.node? path.toText).map Option.isSome

/-- The target of the link at a path, if there is a link. -/
def linkAt? (fs : FileSystem) (path : Text) : Option Text :=
  match fs.lookup .itself path with
  | .ok (.entry _ (.link target)) => some target
  | _ => none

end ModuleCatalog.FileSystem
