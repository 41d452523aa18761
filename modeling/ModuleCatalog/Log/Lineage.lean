import ModuleCatalog.Log.Basic

/-!
# Loggers above loggers

The parent of a logger is the one whose name is the longest prefix of its own before a dot. Only loggers that have
been asked for are found; a logger without such a prefix stands below the top. The search for the parent goes through
the name from its end, and at each dot that it meets it passes over the character before the dot as well. So the
first of two dots in a row is not seen.
-/

namespace ModuleCatalog.Log

/-- The prefixes before dots of a name that is given from its end, the longest first, as far as they are seen. -/
def prefixesOfReverse : Text → List Text
  | [] => []
  | [_] => []
  | c :: d :: t =>
    if c = .scalar '.' then (d :: t).reverse :: prefixesOfReverse t else prefixesOfReverse (d :: t)

/-- The parent of a logger among those that have been asked for. -/
def parent? (names : List Text) (name : Text) : Option Text :=
  (prefixesOfReverse name.reverse).find? fun before => before ∈ names

theorem length_lt_of_mem_prefixesOfReverse {t before : Text} (h : before ∈ prefixesOfReverse t) :
    before.length < t.length := by
  fun_induction prefixesOfReverse t with
  | case1 => cases h
  | case2 => cases h
  | case3 d t ih =>
    rcases List.mem_cons.1 h with rfl | h
    · simp
    · exact Nat.lt_succ_of_lt (Nat.lt_succ_of_lt (ih h))
  | case4 c d t hc ih => exact Nat.lt_succ_of_lt (ih h)

theorem length_lt_of_parent? {names : List Text} {name parent : Text} (h : parent? names name = some parent) :
    parent.length < name.length := by
  have hmem := length_lt_of_mem_prefixesOfReverse (List.mem_of_find?_eq_some h)
  rwa [List.length_reverse] at hmem

/-- A logger and those above it, up to the one below the top. -/
def lineage (names : List Text) (name : Text) : List Text :=
  match _h : parent? names name with
  | none => [name]
  | some parent => name :: lineage names parent
termination_by name.length
decreasing_by exact length_lt_of_parent? _h

end ModuleCatalog.Log
