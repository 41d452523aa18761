import ModuleCatalog.Category.Printer
import ModuleCatalog.Proofs.Category.Reading

/-!
# Categories read back

Written categories are read back as they are if their names are words and their keys and values hold no character
that ends an argument, an entry or the line of a call. Parentheses in a value do no harm, since the last one of a
line closes a call, and an equals sign in the value of a key does none, since the first one ends the key. Empty keys
and values are read back as well.
-/

namespace ModuleCatalog

theorem map_map_eq_self {α β : Type} {write : α → β} {read : β → α} {xs : List α} (h : ∀ x ∈ xs, read (write x) = x) :
    (xs.map write).map read = xs := by
  calc (xs.map write).map read
      = xs.map (read ∘ write) := List.map_map
    _ = xs.map id := List.map_congr_left h
    _ = xs := List.map_id xs

/-! ## What can be written -/

/-- The characters that end an entry, an argument or the line of a call. -/
def Category.delimiters : Text := " ,\n"

/-- A text that can stand on either side of an equals sign. -/
@[mk_iff]
structure Text.IsArgument (t : Text) : Prop where
  trimmed : t.IsTrimmed
  lacks : ∀ c ∈ Category.delimiters, c ∉ t

instance (t : Text) : Decidable t.IsArgument := decidable_of_iff _ (Text.isArgument_iff t).symm

/-- An attribute without a key would be read as a keyed one if its value held an equals sign. -/
@[mk_iff]
structure Attribute.IsWritable (a : Attribute) : Prop where
  value : a.value.IsArgument
  key : ∀ key ∈ a.key, Text.IsArgument key ∧ CodePoint.scalar '=' ∉ key
  positional : a.key = none → CodePoint.scalar '=' ∉ a.value

instance (a : Attribute) : Decidable a.IsWritable := decidable_of_iff _ (Attribute.isWritable_iff a).symm

@[mk_iff]
structure Category.IsWritable (c : Category) : Prop where
  name : c.name.IsWordRun
  attributes : ∀ a ∈ c.attributes, a.IsWritable

instance (c : Category) : Decidable c.IsWritable := decidable_of_iff _ (Category.isWritable_iff c).symm

/-! ## Arguments -/

namespace Attribute

variable {a : Attribute}

theorem parse_render (h : a.IsWritable) : parse a.render = a := by
  obtain ⟨key, value⟩ := a
  have hvalue : value.trim = value := Text.trim_eq_self_iff.2 h.value.trimmed
  symm
  rw [← says_iff]
  cases key with
  | none =>
    have hsays : Says value ⟨none, value.trim⟩ := .positional (h.positional rfl)
    rwa [hvalue] at hsays
  | some key =>
    obtain ⟨hkey, hequals⟩ := h.key key rfl
    have hsays : Says (key ++ .scalar '=' :: value) ⟨some key.trim, value.trim⟩ := .keyed hequals rfl
    rwa [hvalue, Text.trim_eq_self_iff.2 hkey.trimmed] at hsays

theorem not_mem_render (h : a.IsWritable) {c : CodePoint} (hc : c ∈ Category.delimiters) : c ∉ a.render := by
  obtain ⟨key, value⟩ := a
  cases key with
  | none => exact h.value.lacks c hc
  | some key =>
    have hequals : c ≠ .scalar '=' := by
      rintro rfl
      exact absurd hc (by decide)
    have hkey := (h.key key rfl).1.lacks c hc
    have hvalue := h.value.lacks c hc
    simp only [render, List.mem_append, List.mem_cons, not_or]
    exact ⟨hkey, hequals, hvalue⟩

end Attribute

/-! ## Entries -/

namespace Category

variable {c : Category} {categories : List Category} {t : Text}

theorem argumentText?_concat (h : CodePoint.scalar '\n' ∉ t) : argumentText? (t ++ [.scalar ')']) = some t := by
  have hline : (t ++ [CodePoint.scalar ')']).takeWhile (· ≠ .scalar '\n') = t ++ [.scalar ')'] := by
    rw [List.takeWhile_eq_self_iff]
    intro c hc
    rw [List.mem_append, List.mem_singleton] at hc
    rw [decide_eq_true_iff]
    rintro rfl
    exact hc.elim h (by decide)
  rw [argumentText?, hline, Text.beforeLast?_concat]

/-- An entry without one of the two parentheses is a name. -/
theorem parse_of_not_mem (h : CodePoint.scalar '(' ∉ t ∨ CodePoint.scalar ')' ∉ t) : parse t = bare t := by
  have hplaces : callPlaces t = ∅ := by
    apply Set.eq_empty_of_forall_notMem
    rintro place ⟨hopening, -, stop, -, hclosing, -⟩
    exact h.elim (absurd (List.mem_of_getElem? hopening)) (absurd (List.mem_of_getElem? hclosing))
  symm
  exact eq_parse_of_says (.bare hplaces)

theorem parse_of_isWordRun (h : t.IsWordRun) : parse t = bare t := by
  apply parse_of_not_mem
  exact .inl fun hmem => absurd (h.isWord _ hmem) (by decide)

/-- What stands between the parentheses of a written category. -/
def arguments (c : Category) : Text := Text.joinWith "," (c.attributes.map Attribute.render)

theorem render_of_nil (h : c.attributes = []) : c.render = c.name := by
  rw [render, renderWith, h, List.isEmpty_nil, if_pos rfl]

theorem renderWith_of_ne_nil (separator : Text) (h : c.attributes ≠ []) :
    c.renderWith separator =
      c.name ++ .scalar '(' :: (Text.joinWith separator (c.attributes.map Attribute.render) ++ [.scalar ')']) := by
  rw [renderWith, if_neg (mt List.isEmpty_iff.1 h), List.append_assoc, List.append_assoc]
  rfl

theorem render_of_ne_nil (h : c.attributes ≠ []) :
    c.render = c.name ++ .scalar '(' :: (c.arguments ++ [.scalar ')']) :=
  renderWith_of_ne_nil "," h

variable (h : c.IsWritable)

include h

theorem not_mem_arguments {d : CodePoint} (hd : d ∈ delimiters) (hne : d ≠ .scalar ',') : d ∉ c.arguments := by
  intro hmem
  rcases Text.mem_joinWith hmem with hcomma | ⟨piece, hpiece, hmem⟩
  · exact hne (List.mem_singleton.1 hcomma)
  · obtain ⟨a, ha, rfl⟩ := List.mem_map.1 hpiece
    exact Attribute.not_mem_render (h.attributes a ha) hd hmem

theorem separated_arguments (hne : c.attributes ≠ []) :
    Text.Separated ',' c.arguments (c.attributes.map Attribute.render) where
  ne_nil := mt List.map_eq_nil_iff.1 hne
  lacks := List.forall_mem_map.2 fun a ha => Attribute.not_mem_render (h.attributes a ha) (by decide)
  joined := rfl

theorem findCall?_render (hne : c.attributes ≠ []) : findCall? c.render = some (c.name, c.arguments) := by
  have hbreak : CodePoint.scalar '\n' ∉ c.arguments := not_mem_arguments h (by decide) (by decide)
  have hcall : callAt? c.render = some (c.name, c.arguments) := by
    rw [render_of_ne_nil hne, callAt?_append h.name, argumentText?_concat hbreak, Option.map_some]
  -- The entry begins with its call, so the search ends at its first character.
  rw [render_of_ne_nil hne] at hcall ⊢
  obtain ⟨first, rest, hname, -⟩ := h.name.exists_cons
  rw [hname, List.cons_append] at hcall ⊢
  rw [findCall?, hcall]

theorem parse_render : parse c.render = c := by
  by_cases hne : c.attributes = []
  · rw [render_of_nil hne, parse_of_isWordRun h.name, bare, ← hne]
  · have hattributes : (c.attributes.map Attribute.render).map Attribute.parse = c.attributes :=
      map_map_eq_self fun a ha => Attribute.parse_render (h.attributes a ha)
    rw [parse, findCall?_render h hne]
    dsimp only
    rw [← Text.separated_iff.1 (separated_arguments h hne), hattributes]

theorem render_ne_nil : c.render ≠ [] := by
  by_cases hne : c.attributes = []
  · rw [render_of_nil hne]
    exact h.name.ne_nil
  · rw [render_of_ne_nil hne]
    exact List.append_ne_nil_of_left_ne_nil h.name.ne_nil _

theorem isTrimmed_renderWith (separator : Text) (hne : c.attributes ≠ []) : (c.renderWith separator).IsTrimmed := by
  have hclosing : Text.IsTrimmed [.scalar ')'] := by decide
  rw [renderWith_of_ne_nil separator hne, ← List.cons_append, ← List.append_assoc]
  exact h.name.isTrimmed.append hclosing h.name.ne_nil (List.cons_ne_nil _ _) _

theorem isTrimmed_render : c.render.IsTrimmed := by
  by_cases hne : c.attributes = []
  · rw [render_of_nil hne]
    exact h.name.isTrimmed
  · exact isTrimmed_renderWith h "," hne

theorem space_not_mem_render : CodePoint.scalar ' ' ∉ c.render := by
  have hname : CodePoint.scalar ' ' ∉ c.name := fun hmem => absurd (h.name.isWord _ hmem) (by decide)
  by_cases hne : c.attributes = []
  · rwa [render_of_nil hne]
  · have harguments : CodePoint.scalar ' ' ∉ c.arguments := not_mem_arguments h (by decide) (by decide)
    rw [render_of_ne_nil hne]
    simp [hname, harguments]

/-- A written category is read back. -/
theorem parseAll_render : parseAll c.render = [c] := by
  rw [parseAll, Text.trim_eq_self_iff.2 (isTrimmed_render h), Text.splitOn_of_not_mem (space_not_mem_render h),
    List.map_singleton, parse_render h]

omit h

theorem isTrimmed_renderAll (h : ∀ c ∈ categories, c.IsWritable) : (renderAll categories).IsTrimmed := by
  apply Text.isTrimmed_joinWith
  · exact List.forall_mem_map.2 fun c hc => render_ne_nil (h c hc)
  · exact List.forall_mem_map.2 fun c hc => isTrimmed_render (h c hc)

theorem separated_renderAll (hne : categories ≠ []) (h : ∀ c ∈ categories, c.IsWritable) :
    Text.Separated ' ' (renderAll categories) (categories.map render) where
  ne_nil := mt List.map_eq_nil_iff.1 hne
  lacks := List.forall_mem_map.2 fun c hc => space_not_mem_render (h c hc)
  joined := rfl

/-- Written categories are read back. -/
theorem parseAll_renderAll (hne : categories ≠ []) (h : ∀ c ∈ categories, c.IsWritable) :
    parseAll (renderAll categories) = categories := by
  have htrim : (renderAll categories).trim = renderAll categories := Text.trim_eq_self_iff.2 (isTrimmed_renderAll h)
  calc parseAll (renderAll categories)
      = (Text.splitOn ' ' (renderAll categories)).map parse := by rw [parseAll, htrim]
    _ = (categories.map render).map parse := by rw [Text.separated_iff.1 (separated_renderAll hne h)]
    _ = categories := map_map_eq_self fun c hc => parse_render (h c hc)

/-- Arguments that are empty, or hold parentheses or an equals sign behind a key. -/
def mixedCategories : List Category :=
  [bare "entity", ⟨"route", [⟨none, "f(x)"⟩, ⟨some "to", "a=b)"⟩, ⟨some "", ""⟩, ⟨none, ""⟩]⟩]

theorem parseAll_renderAll_mixedCategories : mixedCategories ≠ [] ∧ (∀ c ∈ mixedCategories, c.IsWritable) ∧
    parseAll (renderAll mixedCategories) = mixedCategories := by
  have hne : mixedCategories ≠ [] := List.cons_ne_nil _ _
  have hwritable : ∀ c ∈ mixedCategories, c.IsWritable := by decide
  exact ⟨hne, hwritable, parseAll_renderAll hne hwritable⟩

end Category

end ModuleCatalog
