import ModuleCatalog.Text.Basic

/-!
# Categories and modules

A module is a named class of a source tree together with the categories it declares. A category may
carry attributes: positional ones, which have no key, and keyed ones. Attributes keep their order, and
keys may repeat; the first value of a key is the one that is found.
-/

namespace ModuleCatalog

/-- One argument of a category; positional when it has no key. -/
structure Attribute where
  key : Option Text
  value : Text
  deriving DecidableEq, Repr

def Attribute.isPositional (a : Attribute) : Bool := a.key.isNone

structure Category where
  name : Text
  attributes : List Attribute
  deriving DecidableEq, Repr

namespace Category

/-- A category without attributes. -/
def bare (name : Text) : Category := ⟨name, []⟩

/-- The values of the positional attributes. -/
def positional (c : Category) : List Text := (c.attributes.filter Attribute.isPositional).map (·.value)

/-- The first value of a key; no key at all asks for the positional attributes. -/
def get? (c : Category) (key : Option Text) : Option Text :=
  (c.attributes.find? fun a => a.key = key).map (·.value)

def has (c : Category) (key : Option Text) : Bool := c.attributes.any fun a => a.key = key

theorem isSome_get? (c : Category) (key : Option Text) : (c.get? key).isSome = c.has key := by
  rw [get?, has, Option.isSome_map, Bool.eq_iff_iff, List.find?_isSome, List.any_eq_true]

end Category

/-- A class found in a source text: the namespace it stands in, its own name and its categories. -/
structure Module where
  enclosing : Text
  typeName : Text
  categories : List Category
  deriving DecidableEq, Repr

namespace Module

/-- Namespace and name joined by a backslash. -/
def qualifiedName (m : Module) : Text := m.enclosing ++ CodePoint.scalar '\\' :: m.typeName

/-- The first category of a name. -/
def category? (m : Module) (name : Text) : Option Category := m.categories.find? fun c => c.name = name

end Module

end ModuleCatalog
