import ModuleCatalog.Artifact.Decode
import ModuleCatalog.Config.Basic
import ModuleCatalog.FileSystem.TextFile
import ModuleCatalog.Yaml.Problem

/-!
# Failures

Everything that can end a run, with its cause. Failures of configuration, discovery and artifacts are
reported to the user; the others have no report of their own.
-/

namespace ModuleCatalog

/-- Why an artifact cannot be read or written. -/
inductive Artifact.Problem
  | notFound
  | unreadable (cause : FileSystem.Error)
  | undecodable (cause : Utf8.DecodeError)
  | malformed (cause : Artifact.DecodeError)
  | unwritable (cause : FileSystem.Error)
  | unencodable (cause : Utf8.EncodeError)
  deriving Repr

def Artifact.Problem.message : Artifact.Problem → Text
  | .notFound => "Artifact not found"
  | .unreadable cause => "Failed to read artifact: " ++ cause.message
  | .undecodable cause => "Failed to read artifact: " ++ cause.message
  | .malformed cause => cause.message
  | .unwritable cause => "Failed to write artifact: " ++ cause.message
  | .unencodable cause => "Failed to write artifact: " ++ cause.message

/-- Why a directory or file cannot be read during discovery. -/
inductive DiscoveryProblem
  | notDirectory
  | refused (cause : FileSystem.Error)
  | undecodable (reason : Utf8.Reason)
  deriving DecidableEq, Repr

def DiscoveryProblem.message : DiscoveryProblem → Text
  | .notDirectory => "not a directory"
  | .refused cause => cause.description
  | .undecodable reason => "not valid UTF-8 (" ++ reason.message ++ ")"

/-- What a value would be used for that an option has not been given. -/
inductive Purpose
  | path
  | name
  deriving DecidableEq, Repr

def Purpose.message : Purpose → Text
  | .path => "expected str, bytes or os.PathLike object, not list"
  | .name => "unhashable type: 'list'"

inductive Failure
  | configuration (problem : Config.Problem)
  | discovery (path : Path) (problem : DiscoveryProblem)
  | artifact (path : Path) (problem : Artifact.Problem)
  | chunks (problem : Artifact.EncodeError)
  | files (problem : FileSystem.Error)
  | path (problem : FileSystem.PathError)
  | undecodable (problem : Utf8.DecodeError)
  | value (problem : Yaml.Problem)
  | absent (purpose : Purpose)
  deriving Repr

namespace Failure

def message : Failure → Text
  | .configuration problem => problem.message
  | .discovery place problem => "Failed to read " ++ place.toText ++ ": " ++ problem.message
  | .artifact place problem => problem.message ++ " (" ++ place.toText ++ ")"
  | .chunks problem => problem.message
  | .files problem => problem.message
  | .path problem => problem.message
  | .undecodable problem => problem.message
  | .value problem => problem.message
  | .absent purpose => purpose.message

/-- The failure of a text file that nothing else speaks for. -/
def ofTextError : FileSystem.TextError → Failure
  | .refused cause => .files cause
  | .undecodable cause => .undecodable cause

/-- Whether a failure is reported to the user. -/
def isReported : Failure → Bool
  | .configuration _ | .discovery .. | .artifact .. => true
  | _ => false

end Failure

end ModuleCatalog
