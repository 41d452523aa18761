import ModuleCatalog.FileSystem.Resolve

/-!
# Configuration

What a run looks for and where it stores the result. Everything has a default.
-/

namespace ModuleCatalog

structure Config where
  /-- What the names of source files end in, after a dot. -/
  extension : Text := "php"
  /-- The names of directories that are left out, as a set. -/
  excluded : List Text := [".", "..", "test", "tests", "logs"]
  /-- Where the artifact goes, seen from the root of the source tree. -/
  output : Path := "vendor/modules.json"
  chunkSize : Int := 70
  workers : Int := 1
  deriving Repr

namespace Config

def suffix (c : Config) : Text := CodePoint.scalar '.' :: c.extension

/-- The path of the artifact of a source tree. -/
def outputPath (c : Config) (root : Path) : Path := root.join c.output

/-- The name of configuration files. -/
def fileName : Text := ".modmanifest.yml"

/-- What is wrong with a configuration file. -/
inductive Problem
  | unreadable (path : Path) (cause : FileSystem.Error)
  | malformed (file : Text)
  | notMapping
  | notText (field : Text)
  | emptyExtension
  | notPositive (field : Text)
  | excludedNotList
  | excludedNotName
  deriving Repr

def Problem.message : Problem → Text
  | .unreadable path cause => "Failed to read " ++ path.toText ++ ": " ++ cause.message
  | .malformed file => "Failed to parse " ++ file ++ ": malformed document"
  | .notMapping => fileName ++ " must contain a mapping at the root"
  | .notText field => field ++ " must be a string"
  | .emptyExtension => "source_extension must not be empty"
  | .notPositive field => field ++ " must be a positive integer"
  | .excludedNotList => "exclude_dirs must be a list of directory names"
  | .excludedNotName => "exclude_dirs entries must be directory names"

end Config

end ModuleCatalog
