import ModuleCatalog.Text.Basic

/-!
# Sorted texts

Names are listed in the order of their code points.
-/

namespace ModuleCatalog.Text

/-- Order by a text that belongs to each element. -/
def sortOn {α : Type} (key : α → Text) (xs : List α) : List α :=
  xs.mergeSort fun a b => !before (key b) (key a)

def sorted (ts : List Text) : List Text := sortOn id ts

end ModuleCatalog.Text
