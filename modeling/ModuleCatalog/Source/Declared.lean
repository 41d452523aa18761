import ModuleCatalog.Category.Parser
import ModuleCatalog.Source.Namespace
import ModuleCatalog.Source.Marker
import ModuleCatalog.Source.ClassDeclaration

/-!
# The module that a source text declares

A source text declares at most one module. It needs a namespace declaration and, behind it, a marker in
a doc comment to which a class belongs; the first such marker counts.
-/

namespace ModuleCatalog.Source

/-- The first marker with a class, as a module of a namespace. -/
def firstModule? (enclosing : Text) (markers : List (Text × Text)) : Option Module :=
  markers.findSome? fun (categories, rest) =>
    (declaredClass? rest).map fun typeName => ⟨enclosing, typeName, Category.parseAll categories⟩

/-- The module that a text declares, if any. -/
def declaredModule? (t : Text) : Option Module := do
  let (enclosing, rest) ← declaredNamespace? t
  firstModule? enclosing (markers rest)

end ModuleCatalog.Source
