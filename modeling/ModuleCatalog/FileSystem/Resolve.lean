import ModuleCatalog.FileSystem.Lookup

/-!
# Resolved paths

A path is resolved if it is absolute and holds neither links nor dots. Names that lead nowhere are kept.
Two dots go back one name after the links before them have been followed. A loop of links is an error.
-/

namespace ModuleCatalog

/-- One more part behind those of a path: two dots take the last one back. Above a root there is
nothing; above a relative path the dots stay. -/
def Path.append (isAbsolute : Bool) (kept : List Text) (part : Text) : List Text :=
  if part ≠ ".." then kept ++ [part]
  else
    match kept.getLast? with
    | none => if isAbsolute then [] else [part]
    | some last => if last = ".." then kept ++ [part] else kept.dropLast

/-- Leave out the parts that two dots take back. -/
def Path.collapse (p : Path) : Path := ⟨p.root, p.parts.foldl (Path.append p.isAbsolute) []⟩

namespace FileSystem

/-- A path made absolute by names alone. -/
def absolute (fs : FileSystem) (p : Path) : Path := (fs.workingPath.join p).collapse

theorem isAbsolute_absolute (fs : FileSystem) (p : Path) : (fs.absolute p).isAbsolute := by
  rw [absolute, Path.collapse, Path.join]
  split
  · next habsolute => exact habsolute
  · rfl

/-- What is known of the links met so far: where they lead, or that they are being followed. -/
abbrev Links := List (Path × Option Path)

/-- The path so far with one name taken back. -/
def back (p : Path) : Path :=
  match p.parts.getLast? with
  | none => if p.isAbsolute then p else p.child ".."
  | some last => if last = ".." then p.child ".." else p.parent

/-- The path that names behind a path make as a text; an absolute one stands alone. -/
def behind (p : Path) (names : List Text) : Path := p.join (Path.parse (Text.joinWith "/" names))

/-- Resolve names from a resolved path on; empty names and dots mean nothing. The flag of the result says
whether no loop was met; at a loop the text of the remaining names is left as it is. The first argument
bounds the number of links that are being followed at a time. -/
def resolveNames (fs : FileSystem) : Nat → Links → Path → List Text → Except Error (Path × Bool × Links)
  | _, links, p, [] => .ok (p, true, links)
  | fuel, links, p, name :: names =>
    if name = [] ∨ name = "." then resolveNames fs fuel links p names
    else if name = ".." then resolveNames fs fuel links (back p) names
    else
      let next := p.child name
      match checkText next.toText, fs.linkAt? next.toText with
      | .error cause, _ => .error cause
      | .ok (), none => resolveNames fs fuel links next names
      | .ok (), some target =>
        match Assoc.get? next links, fuel with
        | some (some known), fuel => resolveNames fs fuel links known names
        | some none, _ => .ok (behind next names, false, links)
        | none, 0 => .ok (behind next names, false, links)
        | none, fuel + 1 =>
          let start := if Text.startsWith target "/" then ⟨.slash, []⟩ else p
          match resolveNames fs fuel (Assoc.put next none links) start (Text.splitOn '/' target) with
          | .error cause => .error cause
          | .ok (q, false, links) => .ok (behind q names, false, links)
          | .ok (q, true, links) =>
            resolveNames fs (fuel + 1) (Assoc.put next (some q) links) q names
termination_by fuel _ _ names => (fuel, names.length)

/-- More than the number of links that a file system can hold without a loop among them. -/
def linkBound : Nat := 65536

/-- Why a path cannot be resolved. -/
inductive PathError
  | loop (path : Text)
  | noHome
  | refused (cause : Error)
  deriving DecidableEq, Repr

def PathError.message : PathError → Text
  | .loop path => "Symlink loop from " ++ path.quoted
  | .noHome => "Could not determine home directory."
  | .refused cause => cause.message

/-- A path with a home directory in front spelt out. -/
def expandHome (fs : FileSystem) (p : Path) : Except PathError Path := do
  match p.root, p.parts with
  | .relative, (.scalar '~' :: user) :: _ => (checkText user).mapError PathError.refused
  | _, _ => .ok ()
  match fs.homes.expand? p with
  | some p => .ok p
  | none => .error .noHome

/-- Resolve a path. -/
def resolve (fs : FileSystem) (p : Path) : Except PathError Path := do
  let start : Path := if p.isAbsolute then ⟨.slash, []⟩ else ⟨.relative, []⟩
  let (q, _, _) ← (fs.resolveNames linkBound [] start p.parts).mapError PathError.refused
  let q := fs.absolute q
  match fs.locate .target q.toText with
  | .ok _ => .ok q
  | .error (.fault .tooManyLinks _) => .error (.loop q.toText)
  | .error (.fault ..) => .ok q
  | .error cause => .error (.refused cause)

end FileSystem

end ModuleCatalog
