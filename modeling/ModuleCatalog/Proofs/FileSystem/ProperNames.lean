import ModuleCatalog.FileSystem.Change
import ModuleCatalog.Proofs.FileSystem.Parents
import ModuleCatalog.Proofs.Text.RawByte
import ModuleCatalog.Proofs.Text.Unicode

/-!
# Names that can be asked for

A path can be handed to the file system exactly if its parts can: they have neither a null character nor a
surrogate that stands for no byte. What is refused for such a path is a fault of the file system itself. The names
of the entries of a real file system are of this kind.
-/

namespace ModuleCatalog

namespace FileSystem

/-! ## Paths -/

end FileSystem

/-! ## Trees -/

/-- Whether every entry of a tree has a name that can be asked for. -/
inductive Node.HasProperNames : Node → Prop
  | leaf {node : Node} (h : node.isDirectory = false) : node.HasProperNames
  | directory {entries : List (Text × Node)} (hnames : ∀ entry ∈ entries, FileSystem.checkText entry.1 = .ok ())
    (hnodes : ∀ entry ∈ entries, HasProperNames entry.2) : HasProperNames (.directory entries)

end ModuleCatalog
