import ModuleCatalog.Artifact.Store

/-!
# Calls in turns

Several calls may store artifacts at one target at a time. They take their requests in turns, in any order,
and all of them may stop anywhere, as in a crash. A call makes its temporary file under any name that nothing
has; a number says from where on it tries names.
-/

namespace ModuleCatalog.Artifact

/-- The temporary file that a call has made and not yet given up. -/
def Phase.temporary? : Phase → Option Path
  | .writing temporary | .syncing temporary | .permitting temporary | .replacing temporary
  | .cleaning temporary _ => some temporary
  | .preparing | .creating | .finished _ => none

/-- The next request of a call; names for a temporary file are tried from a number on. -/
def Call.stepFrom (firstName : Nat) (c : Call) (refusal : Option Refusal) (fs : FileSystem) :
    Call × FileSystem :=
  match c.phase, refusal with
  | .creating, none =>
    match fs.createFrom c.target (fs.entryCount (fs.absolute c.target.parent) + 1) firstName with
    | .ok (temporary, fs) => ({ c with phase := .writing temporary }, fs)
    | .error cause => ({ c with phase := .finished (.error (c.failure cause)) }, fs)
  | _, _ => c.step refusal fs

/-- A turn: the call that takes it, whether its request is refused, and from where on it tries names. -/
structure Turn where
  call : Nat
  refusal : Option Refusal
  firstName : Nat

/-- Calls and the file system that they share. -/
structure Calls where
  calls : List Call
  fs : FileSystem

namespace Calls

/-- The calls that store manifests at a target. Those that fail before their first request are left out. -/
def start (fs : FileSystem) (target : Path) (requests : List (Manifest × Int)) : Calls where
  calls := requests.filterMap fun (m, chunkSize) => (Call.start m target chunkSize).toOption
  fs := fs

/-- One request of one call. -/
def take (s : Calls) (turn : Turn) : Calls :=
  match s.calls[turn.call]? with
  | none => s
  | some c =>
    let (c, fs) := c.stepFrom turn.firstName turn.refusal s.fs
    ⟨s.calls.set turn.call c, fs⟩

/-- What is there after some turns. -/
def run (s : Calls) (turns : List Turn) : Calls := turns.foldl take s

end Calls

end ModuleCatalog.Artifact
