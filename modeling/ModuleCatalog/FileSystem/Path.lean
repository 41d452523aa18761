import ModuleCatalog.Assoc
import ModuleCatalog.Text.Basic

/-!
# Paths

A path is a root and a list of parts. Written paths may repeat slashes and hold single dots, which mean
nothing; two dots are kept, because the part before them may be a link. Exactly two slashes in front are
a root of their own.
-/

namespace ModuleCatalog

/-- Where a path begins: nowhere, or at one of the two roots. -/
inductive PathRoot
  | relative
  | slash
  | doubleSlash
  deriving DecidableEq, Repr

structure Path where
  root : PathRoot
  parts : List Text
  deriving DecidableEq, Repr

namespace Path

/-- The number of slashes in front of a text decides its root. -/
def rootOf (t : Text) : PathRoot :=
  match (t.takeWhile (· = .scalar '/')).length with
  | 0 => .relative
  | 2 => .doubleSlash
  | _ => .slash

/-- The parts of a text that mean something. -/
def partsOf (t : Text) : List Text := (Text.splitOn '/' t).filter fun part => part ≠ [] ∧ part ≠ "."

def parse (t : Text) : Path := ⟨rootOf t, partsOf t⟩

instance : Coe String Path := ⟨fun s => parse s⟩

def PathRoot.text : PathRoot → Text
  | .relative => ""
  | .slash => "/"
  | .doubleSlash => "//"

/-- The normal form of a path; the empty one is a dot. -/
def toText (p : Path) : Text :=
  if p.root = .relative ∧ p.parts = [] then "."
  else PathRoot.text p.root ++ Text.joinWith "/" p.parts

def isAbsolute (p : Path) : Bool := p.root ≠ .relative

/-- The second path seen from the first one. -/
def join (p q : Path) : Path := if q.isAbsolute then q else ⟨p.root, p.parts ++ q.parts⟩

/-- An entry of the directory at a path. -/
def child (p : Path) (name : Text) : Path := ⟨p.root, p.parts ++ [name]⟩

def parent (p : Path) : Path := ⟨p.root, p.parts.dropLast⟩

/-- The path of the first parts only. -/
def upTo (p : Path) (count : Nat) : Path := ⟨p.root, p.parts.take count⟩

/-- The last part, empty if there is none. -/
def name (p : Path) : Text := p.parts.getLast?.getD []

/-- What follows a directory in a path below it. -/
def relativeTo? (p directory : Path) : Option Path :=
  if p.root = directory.root ∧ directory.parts <+: p.parts then
    some ⟨.relative, p.parts.drop directory.parts.length⟩
  else none

end Path

/-! ## Home directories -/

/-- The home directory of the present user, if it is known, and those of others by name. -/
structure Homes where
  own : Option Text
  others : List (Text × Text)
  deriving Repr

namespace Homes

/-- The home that a part with a tilde in front stands for. -/
def find? (homes : Homes) (part : Text) : Option Text :=
  match part with
  | [.scalar '~'] => homes.own
  | .scalar '~' :: user => Assoc.get? user homes.others
  | _ => none

/-- A home directory as a path; one that begins with a tilde itself is none. -/
def path? (homes : Homes) (part : Text) : Option Path := do
  let home ← homes.find? part
  let home := (home.reverse.dropWhile (· = .scalar '/')).reverse
  let home : Text := if home.isEmpty then "/" else home
  if Text.startsWith home "~" then none else some (Path.parse home)

/-- A path in which a tilde in front has been replaced by the home directory it stands for; nothing if
there is no such directory. -/
def expand? (homes : Homes) (p : Path) : Option Path :=
  match p.root, p.parts with
  | .relative, part :: parts =>
    if Text.startsWith part "~" then
      (homes.path? part).map fun home => ⟨home.root, home.parts ++ parts⟩
    else some p
  | _, _ => some p

end Homes

end ModuleCatalog
