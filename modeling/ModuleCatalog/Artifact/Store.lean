import ModuleCatalog.Artifact.Encode
import ModuleCatalog.Failure

/-!
# Storing and loading artifacts

An artifact is written to a temporary file beside its target, which then takes the place of the target.
So a reader of the target sees what was there before or the whole new artifact. Storing is a sequence of
requests to the file system; when one of them fails, the temporary file is removed. Any request may be
refused for a reason that the state of the file system does not show, perhaps after a part of it has been
done, and several calls may take their requests in turns.
-/

namespace ModuleCatalog.Artifact

/-- The next request of a call. -/
inductive Phase
  | preparing
  | creating
  | writing (temporary : Path)
  | syncing (temporary : Path)
  | permitting (temporary : Path)
  | replacing (temporary : Path)
  | cleaning (temporary : Path) (failure : Failure)
  | finished (outcome : Except Failure Unit)

/-- The number of requests that a call may still make. -/
def Phase.remaining : Phase → Nat
  | .preparing => 7
  | .creating => 6
  | .writing _ => 5
  | .syncing _ => 4
  | .permitting _ => 3
  | .replacing _ => 2
  | .cleaning .. => 1
  | .finished _ => 0

/-- The outcome of a call that has finished. -/
def Phase.outcome? : Phase → Option (Except Failure Unit)
  | .finished outcome => some outcome
  | _ => none

theorem Phase.remaining_pos {phase : Phase} (h : phase.outcome? = none) : 0 < phase.remaining := by
  cases phase with
  | finished outcome => cases h
  | _ => exact Nat.succ_pos _

/-- A call that stores a text at a target. -/
structure Call where
  target : Path
  text : Text
  phase : Phase

/-- A fault that refuses a request, and how much of the request has been done before: the number of parts of
the path whose directories have been made, or the number of bytes that have been written. -/
structure Refusal where
  fault : FileSystem.Fault
  progress : Nat

/-- The permissions of artifacts. -/
def mode : Nat := 0o644

namespace Call

/-- The call that stores a manifest. -/
def start (m : Manifest) (target : Path) (chunkSize : Int) : Except Failure Call :=
  match encode m chunkSize with
  | .error problem => .error (.chunks problem)
  | .ok text => .ok ⟨target, text, .preparing⟩

/-- The failure that an error of a request is. -/
def failure (c : Call) : FileSystem.Error → Failure
  | .nulCharacter => .files .nulCharacter
  | .unencodable cause => .artifact c.target (.unencodable cause)
  | cause => .artifact c.target (.unwritable cause)

/-- Go on with the result of a request on a temporary file, or clean up. -/
def proceed (c : Call) (temporary : Path) (next : Phase) (fs : FileSystem) :
    Except Failure FileSystem → Call × FileSystem
  | .ok fs => ({ c with phase := next }, fs)
  | .error failure => ({ c with phase := .cleaning temporary failure }, fs)

/-- The bytes of a text, written to a file. -/
def writeText (c : Call) (fs : FileSystem) (temporary : Path) : Except Failure FileSystem := do
  let bytes ← (Utf8.encode c.text).mapError fun cause => .artifact c.target (.unencodable cause)
  (fs.write temporary bytes).mapError c.failure

/-- The next request of a call, as the file system answers it. -/
def answer (c : Call) (fs : FileSystem) : Call × FileSystem :=
  match c.phase with
  | .preparing =>
    match fs.ensureDirectories c.target.parent with
    | (fs, .ok ()) => ({ c with phase := .creating }, fs)
    | (fs, .error cause) => ({ c with phase := .finished (.error (c.failure cause)) }, fs)
  | .creating =>
    match fs.createTemporary c.target with
    | .ok (temporary, fs) => ({ c with phase := .writing temporary }, fs)
    | .error cause => ({ c with phase := .finished (.error (c.failure cause)) }, fs)
  | .writing temporary => c.proceed temporary (.syncing temporary) fs (c.writeText fs temporary)
  | .syncing temporary => ({ c with phase := .permitting temporary }, fs)
  | .permitting temporary =>
    c.proceed temporary (.replacing temporary) fs
      ((fs.permit temporary mode).mapError c.failure)
  | .replacing temporary =>
    c.proceed temporary (.finished (.ok ())) fs ((fs.replace temporary c.target).mapError c.failure)
  | .cleaning temporary failure =>
    ({ c with phase := .finished (.error failure) }, (fs.remove temporary).toOption.getD fs)
  | .finished _ => (c, fs)

/-- What a refused request leaves behind. -/
def attempt (c : Call) (progress : Nat) (fs : FileSystem) : FileSystem :=
  match c.phase with
  | .preparing => (fs.ensureDirectories (c.target.parent.upTo progress)).1
  | .writing temporary =>
    match Utf8.encode c.text with
    | .ok bytes => (fs.write temporary (bytes.take progress)).toOption.getD fs
    | .error _ => fs
  | _ => fs

/-- The next request of a call, refused. Cleaning up is never refused. -/
def refuse (c : Call) (refusal : Refusal) (fs : FileSystem) : Call × FileSystem :=
  let failure := c.failure (.fault refusal.fault [])
  match c.phase with
  | .preparing | .creating =>
    ({ c with phase := .finished (.error failure) }, c.attempt refusal.progress fs)
  | .writing temporary | .syncing temporary | .permitting temporary | .replacing temporary =>
    ({ c with phase := .cleaning temporary failure }, c.attempt refusal.progress fs)
  | .cleaning .. | .finished _ => c.answer fs

/-- The next request of a call, answered or refused. -/
def step (c : Call) (refusal : Option Refusal) (fs : FileSystem) : Call × FileSystem :=
  match refusal with
  | none => c.answer fs
  | some refusal => c.refuse refusal fs

theorem remaining_proceed (c : Call) (temporary : Path) (next : Phase) (fs : FileSystem)
    (result : Except Failure FileSystem) (h : next.remaining < c.phase.remaining)
    (hc : 1 < c.phase.remaining) :
    (c.proceed temporary next fs result).1.phase.remaining < c.phase.remaining := by
  cases result with
  | ok => exact h
  | error => exact hc

theorem remaining_answer (c : Call) (fs : FileSystem) (h : 0 < c.phase.remaining) :
    (c.answer fs).1.phase.remaining < c.phase.remaining := by
  unfold answer
  split <;> rename_i hphase
  · rw [hphase]
    split <;> simp [Phase.remaining]
  · rw [hphase]
    split <;> simp [Phase.remaining]
  · exact remaining_proceed _ _ _ _ _ (by simp [hphase, Phase.remaining]) (by simp [hphase, Phase.remaining])
  · simp [hphase, Phase.remaining]
  · exact remaining_proceed _ _ _ _ _ (by simp [hphase, Phase.remaining]) (by simp [hphase, Phase.remaining])
  · exact remaining_proceed _ _ _ _ _ (by simp [hphase, Phase.remaining]) (by simp [hphase, Phase.remaining])
  · simp [hphase, Phase.remaining]
  · rw [hphase] at h
    exact absurd h (Nat.lt_irrefl 0)

theorem remaining_refuse (c : Call) (refusal : Refusal) (fs : FileSystem)
    (h : 0 < c.phase.remaining) : (c.refuse refusal fs).1.phase.remaining < c.phase.remaining := by
  unfold refuse
  split <;> rename_i hphase
  · simp [hphase, Phase.remaining]
  · simp [hphase, Phase.remaining]
  · simp [hphase, Phase.remaining]
  · simp [hphase, Phase.remaining]
  · simp [hphase, Phase.remaining]
  · simp [hphase, Phase.remaining]
  · exact remaining_answer c fs h
  · exact remaining_answer c fs h

theorem remaining_step (c : Call) (refusal : Option Refusal) (fs : FileSystem)
    (h : 0 < c.phase.remaining) : (c.step refusal fs).1.phase.remaining < c.phase.remaining := by
  cases refusal with
  | none => exact remaining_answer c fs h
  | some refusal => exact remaining_refuse c refusal fs h

/-- Make all requests of a call; `refusals` says which ones are refused. -/
def complete (c : Call) (refusals : List (Option Refusal)) (fs : FileSystem) :
    FileSystem × Except Failure Unit :=
  match _h : c.phase.outcome? with
  | some outcome => (fs, outcome)
  | none =>
    let next := c.step (refusals.headD none) fs
    next.1.complete refusals.tail next.2
termination_by c.phase.remaining
decreasing_by exact remaining_step c _ fs (Phase.remaining_pos ‹_›)

end Call

/-- Store a manifest at a path while some requests are refused. -/
def storeWith (refusals : List (Option Refusal)) (fs : FileSystem) (m : Manifest)
    (target : Path) (chunkSize : Int) : FileSystem × Except Failure Unit :=
  match Call.start m target chunkSize with
  | .error failure => (fs, .error failure)
  | .ok call => call.complete refusals fs

/-- Store a manifest at a path. -/
def store : FileSystem → Manifest → Path → Int → FileSystem × Except Failure Unit := storeWith []

/-! ## Loading -/

/-- The failure of an artifact that cannot be read. -/
def readFailure (path : Path) : FileSystem.TextError → Failure
  | .refused (.fault .notFound _) => .artifact path .notFound
  | .refused (.fault fault paths) => .artifact path (.unreadable (.fault fault paths))
  | .refused cause => .files cause
  | .undecodable cause => .artifact path (.undecodable cause)

/-- The manifest stored at a path. -/
def load (fs : FileSystem) (path : Path) : Except Failure Manifest := do
  let text ← (fs.readText path).mapError (readFailure path)
  (decode text).mapError fun cause => .artifact path (.malformed cause)

end ModuleCatalog.Artifact
