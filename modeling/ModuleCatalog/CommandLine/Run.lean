import ModuleCatalog.CommandLine.Invocation
import ModuleCatalog.Service.Basic

/-!
# Running a command

A run reads its arguments, changes the file system and writes to two streams. Log records go to the error
stream. A failure that is reported to the user ends the run with exit code 1; any other failure is the
outcome itself.
-/

namespace ModuleCatalog.CommandLine

/-- How a run ends. -/
inductive Ending
  | exit (code : Nat)
  | failed (failure : Failure)
  | serving (service : Service) (host : Given Text) (port : Given Int)
  deriving Repr

/-- What a run has written to the two streams, and how it has ended. -/
structure Outcome where
  out : Text
  err : Text
  ending : Ending
  deriving Repr

namespace Outcome

/-- A run that has done what it was asked. -/
def done (out err : Text) : Outcome := ⟨out, err, .exit 0⟩

/-- A run that says why it has not. -/
def refused (err message : Text) : Outcome := ⟨[], err ++ message ++ "\n", .exit 1⟩

/-- A run that has failed; reported failures have a message in front. -/
def ofFailure (err lead : Text) (failure : Failure) : Outcome :=
  if failure.isReported then refused err (lead ++ failure.message) else ⟨[], err, .failed failure⟩

end Outcome

/-! ## Generating -/

/-- A path as it is shown: seen from the working directory if it lies below. -/
def shownPath (fs : FileSystem) (path : Path) : Except Failure Text :=
  match fs.resolve path with
  | .ok resolved => .ok (((resolved.relativeTo? fs.workingPath).getD path).toText)
  | .error (.refused cause) => if cause.isFault then .error (.path (.refused cause)) else .ok path.toText
  | .error problem => .error (.path problem)

/-- The line that tells what has been stored. -/
def storedLine (shown : Text) (stored : Generation.Stored) : Text :=
  "Manifest written to " ++ shown ++ " (" ++ Decimal.ofNat stored.manifest.moduleCount ++ " modules, " ++
    Decimal.ofNat stored.manifest.names.length ++ " categories)\n"

/-- The path of an option that is given and not empty. -/
def pathOption : Option (Given Text) → Option Path
  | none | some .nothing | some (.value []) => none
  | some (.value text) => some (Path.parse text)

/-- The path that an option has been given. -/
def givenPath : Given Text → Except Failure Path
  | .nothing => .error (.absent .path)
  | .value text => .ok (Path.parse text)

def runGenerate (fs : FileSystem) (level : Log.Level) (path : Text) (output config : Option (Given Text)) :
    FileSystem × Outcome :=
  let lead : Text := "modmanifest generate failed: "
  let root := Path.parse path
  let settled : Except Failure (Config × Option Path) := do
    let c ← Config.loadForRoot fs root (pathOption config)
    .ok (c, ← output.mapM givenPath)
  match settled with
  | .error failure => (fs, .ofFailure [] lead failure)
  | .ok (c, output) =>
    let (fs, stored) := Generation.store fs c root output
    let err := Log.shown level stored.records
    match stored.outcome with
    | .error failure => (fs, .ofFailure err lead failure)
    | .ok stored =>
      match shownPath fs stored.path with
      | .ok shown => (fs, .done (storedLine shown stored) err)
      | .error failure => (fs, ⟨[], err, .failed failure⟩)

/-! ## Showing -/

/-- The entries to show: all, or those of one name; nothing if there is no such name. -/
def selected? (m : Manifest) (category : Option Text) : Option (List (Text × List Module)) :=
  match category with
  | none => some (m.names.map fun name => (name, m.members name))
  | some name => if m.contains name then some [(name, m.members name)] else none

/-- The name that an option has been given. -/
def givenName : Given Text → Except Failure Text
  | .nothing => .error (.absent .name)
  | .value name => .ok name

/-- Names and modules as a JSON document. -/
def entriesJson (entries : List (Text × List Module)) : Json :=
  .object (entries.map fun (name, modules) => (name, .array (modules.map Module.toJson)))

def memberLine (found : Module) : Text := "  " ++ found.qualifiedName ++ "\n"

/-- A name, and the modules below it. -/
def entryLines (entry : Text × List Module) : Text := entry.1 ++ ":\n" ++ entry.2.flatMap memberLine

def runShow (fs : FileSystem) (artifact : Given Text) (category : Option (Given Text)) (json : Bool) :
    Outcome :=
  let loaded : Except Failure (Manifest × Option Text) := do
    let m ← Artifact.load fs (← givenPath artifact)
    .ok (m, ← category.mapM givenName)
  match loaded with
  | .error failure => .ofFailure [] [] failure
  | .ok (m, category) =>
    match selected? m category with
    | none => .refused [] ("Unknown category: " ++ category.getD [])
    | some entries =>
      if json then .done ((entriesJson entries).indented .ascii ++ "\n") []
      else .done (entries.flatMap entryLines) []

/-! ## Serving -/

def runServe (fs : FileSystem) (artifact host : Given Text) (port : Given Int) : Outcome :=
  let created : Except Failure Service := do Service.create fs (← givenPath artifact)
  match created with
  | .error failure => ⟨[], [], .failed failure⟩
  | .ok service => ⟨[], [], .serving service host port⟩

/-- Run what the command line asks for. -/
def runInvocation (fs : FileSystem) (i : Invocation) : FileSystem × Outcome :=
  match i.command with
  | .generate path output config =>
    runGenerate fs (Log.Level.wanted i.verbose i.quiet) path output config
  | .show artifact category json => (fs, runShow fs artifact category json)
  | .serve artifact host port => (fs, runServe fs artifact host port)

/-- Run the program with some arguments. -/
def run (fs : FileSystem) (arguments : List Text) : FileSystem × Outcome :=
  match parse arguments with
  | .error e => (fs, ⟨e.out, e.err, .exit e.code⟩)
  | .ok i => runInvocation fs i

end ModuleCatalog.CommandLine
