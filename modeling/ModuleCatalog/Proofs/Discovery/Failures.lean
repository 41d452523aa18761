import ModuleCatalog.Proofs.Discovery.SourceFiles
import ModuleCatalog.Proofs.Discovery.Workers
import ModuleCatalog.Proofs.FileSystem.ProperNames

/-!
# Failures of a walk

A walk that fails names a path at or below its root, unless it is not even known whether the root is a directory.
-/

namespace ModuleCatalog.Discovery

open FileSystem

variable {fs : FileSystem} {c : Config} {path : Path} {entries : List (Text × Node)}

/-! ## Paths below a path -/

section Gather

variable {parts : List (Text × Logged (List Path))}

end Gather

/-! ## Source files -/

end ModuleCatalog.Discovery
