import ModuleCatalog.Artifact.Store
import ModuleCatalog.Discovery.Walk
import ModuleCatalog.Manifest.Build
import ModuleCatalog.Manifest.Lookup

/-!
# Generating the manifest of a source tree

The modules of a tree are discovered, listed under their categories and stored. Nothing is stored unless
discovery succeeds.
-/

namespace ModuleCatalog

namespace Generation

/-- The logger of generation. -/
def logger : Text := "manifest"

/-- A stored manifest and its path. -/
structure Stored where
  path : Path
  manifest : Manifest

/-- The number of modules and the number of categories. -/
def summary (modules : List Module) (manifest : Manifest) : Text :=
  "Discovered " ++ Decimal.ofNat modules.length ++ " modules across " ++
    Decimal.ofNat manifest.names.length ++ " categories"

/-- The manifest of the tree below a path, with a schedule for the workers. -/
def generateWith (schedule : Nat → List Nat) (fs : FileSystem) (c : Config) (root : Path) :
    Logged Manifest := do
  let modules ← Discovery.walkWith schedule fs c root
  let manifest := Manifest.build modules
  .note logger .info (summary modules manifest)
  pure manifest

/-- The manifest of the tree below a path. -/
def generate : FileSystem → Config → Path → Logged Manifest := generateWith List.range

/-- Where the artifact of a tree goes: to the output that is asked for, seen from the root, or to the
configured one. -/
def targetOf (c : Config) (root : Path) (output : Option Path) : Path :=
  match output with
  | none => c.outputPath root
  | some output => root.join output

/-- Store the manifest of the tree below a path, with a schedule for the workers. -/
def storeWith (schedule : Nat → List Nat) (fs : FileSystem) (c : Config) (root : Path)
    (output : Option Path) : FileSystem × Logged Stored :=
  let target := targetOf c root output
  let generated := generateWith schedule fs c root
  match generated.outcome with
  | .error failure => (fs, ⟨generated.records, .error failure⟩)
  | .ok manifest =>
    let (fs, outcome) := Artifact.store fs manifest target c.chunkSize
    (fs, do
      let manifest ← generated
      Logged.of outcome
      .note logger .info ("Wrote module manifest to " ++ target.toText)
      pure ⟨target, manifest⟩)

/-- Store the manifest of the tree below a path. -/
def store : FileSystem → Config → Path → Option Path → FileSystem × Logged Stored :=
  storeWith List.range

end Generation

end ModuleCatalog
