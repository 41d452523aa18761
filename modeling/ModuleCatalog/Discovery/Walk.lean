import ModuleCatalog.Discovery.Pool
import ModuleCatalog.Discovery.SourceFiles
import ModuleCatalog.Source.Declared

/-!
# The modules of a source tree

Every source file is read, and those that declare a module contribute it. A file that cannot be read, or
that is not valid UTF-8, ends the walk with a failure that names it.
-/

namespace ModuleCatalog

/-- The module that the file at a path declares, if any. -/
def Source.moduleAt? (fs : FileSystem) (path : Path) : Except FileSystem.TextError (Option Module) :=
  (fs.readText path).map Source.declaredModule?

namespace Discovery

/-- The failure of a source file. -/
def failureAt (path : Path) : FileSystem.TextError → Failure
  | .refused cause => if cause.isFault then .discovery path (.refused cause) else .files cause
  | .undecodable cause => .discovery path (.undecodable cause.reason)

/-- The module that a source file contributes. -/
def extract (fs : FileSystem) (path : Path) : Logged (Option Module) :=
  match Source.moduleAt? fs path with
  | .error e => .fail (failureAt path e)
  | .ok none => pure none
  | .ok (some found) => do
    .note logger .debug ("Discovered module " ++ found.qualifiedName ++ " in " ++ path.toText)
    pure (some found)

/-- What the source files contribute. More than one worker form a pool. -/
def extractAll (fs : FileSystem) (c : Config) (schedule : Nat → List Nat) (files : List Path) :
    Logged (List (Option Module)) :=
  if min c.workers files.length > 1 then Pool.run (schedule files.length) (files.map (extract fs))
  else files.mapM (extract fs)

/-- The modules of the tree below a path; a pool of workers completes its tasks in the order that the
schedule gives for their number. -/
def walkWith (schedule : Nat → List Nat) (fs : FileSystem) (c : Config) (root : Path) :
    Logged (List Module) := do
  if !(← Logged.of ((fs.isDirectory root).mapError Failure.files)) then
    .fail (.discovery root .notDirectory)
  else
    let files ← sourceFiles fs c root
    let found ← extractAll fs c schedule files
    .note logger .debug
      ("Scanned " ++ Decimal.ofNat files.length ++ " source files under " ++ root.toText)
    pure (found.filterMap id)

/-- The modules of the tree below a path. -/
def walk : FileSystem → Config → Path → Logged (List Module) := walkWith List.range

end Discovery

end ModuleCatalog
