import ModuleCatalog.Text.RawByte
import ModuleCatalog.Text.Refusal

/-!
# Faults of the file system

A fault has a number, a description and the paths it concerns; besides the faults that a look at the tree
explains there may be others, such as a full disk. Paths with a null character, or with a
surrogate that stands for no byte, never reach the file system.
-/

namespace ModuleCatalog.FileSystem

inductive Fault
  | notFound
  | inputOutput
  | busy
  | exists
  | notDirectory
  | isDirectory
  | invalid
  | nameTooLong
  | notEmpty
  | tooManyLinks
  | other (number : Nat) (description : Text)
  deriving DecidableEq, Repr

def Fault.number : Fault → Nat
  | .notFound => 2
  | .inputOutput => 5
  | .busy => 16
  | .exists => 17
  | .notDirectory => 20
  | .isDirectory => 21
  | .invalid => 22
  | .nameTooLong => 36
  | .notEmpty => 39
  | .tooManyLinks => 40
  | .other number _ => number

def Fault.description : Fault → Text
  | .notFound => "No such file or directory"
  | .inputOutput => "Input/output error"
  | .busy => "Device or resource busy"
  | .exists => "File exists"
  | .notDirectory => "Not a directory"
  | .isDirectory => "Is a directory"
  | .invalid => "Invalid argument"
  | .nameTooLong => "File name too long"
  | .notEmpty => "Directory not empty"
  | .tooManyLinks => "Too many levels of symbolic links"
  | .other _ description => description

inductive Error
  | fault (cause : Fault) (paths : List Text)
  | nulCharacter
  | unencodable (error : Utf8.EncodeError)
  deriving DecidableEq, Repr

def Error.message : Error → Text
  | .fault cause paths =>
    let place : Text :=
      if paths.isEmpty then "" else ": " ++ Text.joinWith " -> " (paths.map Text.quoted)
    "[Errno " ++ Decimal.ofNat cause.number ++ "] " ++ cause.description ++ place
  | .nulCharacter => "embedded null byte"
  | .unencodable error => error.message

/-- A fault without its place. -/
def Error.description : Error → Text
  | .fault cause _ => cause.description
  | e => e.message

/-- Whether an error is a fault of the file system itself. -/
def Error.isFault : Error → Bool
  | .fault .. => true
  | _ => false

end ModuleCatalog.FileSystem
