import ModuleCatalog.Category.Basic

/-!
# Writing categories

The written form of a category is its name, followed by its arguments in parentheses if it has any.
-/

namespace ModuleCatalog

def Attribute.render (a : Attribute) : Text :=
  match a.key with
  | none => a.value
  | some key => key ++ CodePoint.scalar '=' :: a.value

namespace Category

/-- A category with a separator between its arguments. -/
def renderWith (separator : Text) (c : Category) : Text :=
  if c.attributes.isEmpty then c.name
  else c.name ++ "(" ++ Text.joinWith separator (c.attributes.map Attribute.render) ++ ")"

def render (c : Category) : Text := renderWith "," c

/-- Categories separated by single spaces. -/
def renderAll (categories : List Category) : Text := Text.joinWith " " (categories.map render)

end Category

end ModuleCatalog
