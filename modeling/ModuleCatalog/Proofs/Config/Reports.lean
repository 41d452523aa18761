import ModuleCatalog.CommandLine.Run
import ModuleCatalog.Proofs.Config.Reading
import ModuleCatalog.Proofs.Service.Generation

/-!
# What is told about a configuration file

The command line ends with the exit code 1 and the service answers with the status 400 if a configuration file is
wrong in one of the ways that are reported. Everything else that a content can lead to ends the run with the failure
itself, and the service answers with the status 500.
-/

namespace ModuleCatalog.Config

open FileSystem

/-! ## Reported problems -/

section Settings

variable {fs : FileSystem} {d : Yaml.Document} {c : Config} {problem : Problem}

end Settings

/-! ## The command line and the service -/

end ModuleCatalog.Config
