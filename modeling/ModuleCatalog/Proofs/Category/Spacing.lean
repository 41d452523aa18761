import ModuleCatalog.Proofs.Category.RoundTrip

/-!
# Spaces between arguments

A space ends an entry wherever it stands, also behind a comma in a list of arguments. With a space between its
arguments a category falls into as many entries as it has arguments: its name with the first of them, the ones in
between, and the last one with the closing parenthesis. None of these is the category, and all of them are read as
bare names if the arguments hold no parentheses of their own.
-/

namespace ModuleCatalog.Category

/-! ## Entries of spaced arguments -/

/-- Arguments with a comma behind each but the last one, and a closing parenthesis there. -/
def spacedPieces : List Text → List Text
  | [] => []
  | [piece] => [piece ++ ")"]
  | piece :: pieces => (piece ++ ",") :: spacedPieces pieces

section Pieces

variable {pieces : List Text}

theorem length_spacedPieces : (spacedPieces pieces).length = pieces.length := by
  fun_induction spacedPieces pieces with
  | case1 => rfl
  | case2 piece => rfl
  | case3 piece pieces hne ih => rw [List.length_cons, List.length_cons, ih]

theorem spacedPieces_ne_nil (h : pieces ≠ []) : spacedPieces pieces ≠ [] := by
  rw [← List.length_pos_iff, length_spacedPieces, List.length_pos_iff]
  exact h

theorem joinWith_spacedPieces (h : pieces ≠ []) :
    Text.joinWith " " (spacedPieces pieces) = Text.joinWith ", " pieces ++ ")" := by
  fun_induction spacedPieces pieces with
  | case1 => exact absurd rfl h
  | case2 piece => rfl
  | case3 piece pieces hne ih =>
    have hpieces : pieces ≠ [] := hne
    calc Text.joinWith " " ((piece ++ ",") :: spacedPieces pieces)
        = piece ++ "," ++ " " ++ Text.joinWith " " (spacedPieces pieces) := by
          rw [Text.joinWith]
          exact spacedPieces_ne_nil hpieces
      _ = piece ++ "," ++ " " ++ (Text.joinWith ", " pieces ++ ")") := by rw [ih hpieces]
      _ = Text.joinWith ", " (piece :: pieces) ++ ")" := by
          have hseparator : Text.ofString ", " = Text.ofString "," ++ Text.ofString " " := rfl
          rw [Text.joinWith]
          · simp only [hseparator, List.append_assoc]
          · exact hpieces

/-- A comma or a closing parenthesis is all that the entries hold besides the pieces. -/
theorem not_mem_spacedPieces {c : CodePoint} (hcomma : c ≠ .scalar ',') (hclosing : c ≠ .scalar ')')
    (h : ∀ piece ∈ pieces, c ∉ piece) : ∀ entry ∈ spacedPieces pieces, c ∉ entry := by
  fun_induction spacedPieces pieces with
  | case1 => exact List.forall_mem_nil _
  | case2 piece =>
    rw [List.forall_mem_singleton] at h ⊢
    exact List.not_mem_append h (mt List.mem_singleton.1 hclosing)
  | case3 piece pieces hne ih =>
    rw [List.forall_mem_cons] at h ⊢
    exact ⟨List.not_mem_append h.1 (mt List.mem_singleton.1 hcomma), ih h.2⟩

end Pieces

/-- The entries of a category with a space behind each comma between its arguments. -/
def spacedEntries (c : Category) : List Text :=
  match c.attributes.map Attribute.render with
  | [] => [c.name]
  | first :: rest => spacedPieces ((c.name ++ "(" ++ first) :: rest)

section Spaced

variable {c : Category} {first second : Attribute} {rest : List Attribute}
  (hattributes : c.attributes = first :: second :: rest)

include hattributes

theorem spacedEntries_eq :
    c.spacedEntries =
      (c.name ++ "(" ++ first.render ++ ",") :: spacedPieces (second.render :: rest.map Attribute.render) := by
  rw [spacedEntries, hattributes]
  rfl

theorem renderWith_spaced : c.renderWith ", " = Text.joinWith " " c.spacedEntries := by
  have hentries : c.spacedEntries =
      spacedPieces ((c.name ++ "(" ++ first.render) :: second.render :: rest.map Attribute.render) := by
    rw [spacedEntries, hattributes]
    rfl
  calc c.renderWith ", "
      = c.name ++ "(" ++ Text.joinWith ", " (first.render :: second.render :: rest.map Attribute.render) ++ ")" := by
        rw [renderWith, hattributes]
        rfl
    _ = Text.joinWith " " c.spacedEntries := by
        rw [Text.append_joinWith_cons, hentries, joinWith_spacedPieces (List.cons_ne_nil _ _)]

theorem length_spacedEntries : c.spacedEntries.length = c.attributes.length := by
  rw [spacedEntries_eq hattributes, List.length_cons, length_spacedPieces, hattributes]
  simp only [List.length_cons, List.length_map]

omit hattributes

theorem not_mem_firstEntry {d : CodePoint} (hname : d ∉ c.name) (hopening : d ≠ .scalar '(') (hcomma : d ≠ .scalar ',')
    (hfirst : d ∉ first.render) : d ∉ c.name ++ "(" ++ first.render ++ "," := by
  have hstart : d ∉ c.name ++ "(" := List.not_mem_append hname (mt List.mem_singleton.1 hopening)
  exact List.not_mem_append (List.not_mem_append hstart hfirst) (mt List.mem_singleton.1 hcomma)

include hattributes

theorem not_mem_renders {d : CodePoint} (h : ∀ a ∈ c.attributes, d ∉ a.render) :
    d ∉ first.render ∧ ∀ piece ∈ second.render :: rest.map Attribute.render, d ∉ piece := by
  rw [hattributes, List.forall_mem_cons] at h
  refine ⟨h.1, ?_⟩
  rw [← List.map_cons]
  exact List.forall_mem_map.2 h.2

/-- Without parentheses of their own, spaced arguments are read as names. -/
theorem map_parse_spacedEntries (hname : c.name.IsWordRun)
    (h : ∀ a ∈ c.attributes, CodePoint.scalar '(' ∉ a.render ∧ CodePoint.scalar ')' ∉ a.render) :
    c.spacedEntries.map parse = c.spacedEntries.map bare := by
  -- The first entry is never closed, and no later one is ever opened.
  have hclosing : CodePoint.scalar ')' ∉ c.name := fun hmem => absurd (hname.isWord _ hmem) (by decide)
  have hfirst := (not_mem_renders hattributes fun a ha => (h a ha).2).1
  have hrest := (not_mem_renders hattributes fun a ha => (h a ha).1).2
  apply List.map_congr_left
  rw [spacedEntries_eq hattributes, List.forall_mem_cons]
  constructor
  · exact parse_of_not_mem (.inr (not_mem_firstEntry hclosing (by decide) (by decide) hfirst))
  · intro entry hentry
    exact parse_of_not_mem (.inl (not_mem_spacedPieces (by decide) (by decide) hrest entry hentry))

variable (h : c.IsWritable)

include h

theorem separated_spacedEntries : Text.Separated ' ' (c.renderWith ", ") c.spacedEntries where
  ne_nil := by
    rw [spacedEntries_eq hattributes]
    exact List.cons_ne_nil _ _
  lacks := by
    have hname : CodePoint.scalar ' ' ∉ c.name := fun hmem => absurd (h.name.isWord _ hmem) (by decide)
    have hspace : ∀ a ∈ c.attributes, CodePoint.scalar ' ' ∉ a.render :=
      fun a ha => Attribute.not_mem_render (h.attributes a ha) (by decide)
    obtain ⟨hfirst, hrest⟩ := not_mem_renders hattributes hspace
    rw [spacedEntries_eq hattributes, List.forall_mem_cons]
    constructor
    · exact not_mem_firstEntry hname (by decide) (by decide) hfirst
    · exact not_mem_spacedPieces (by decide) (by decide) hrest
  joined := (renderWith_spaced hattributes).symm

/-- A category whose arguments are spaced is read entry by entry. -/
theorem parseAll_renderWith_spaced : parseAll (c.renderWith ", ") = c.spacedEntries.map parse := by
  have hne : c.attributes ≠ [] := hattributes ▸ List.cons_ne_nil _ _
  rw [parseAll, Text.trim_eq_self_iff.2 (isTrimmed_renderWith h _ hne),
    ← Text.separated_iff.1 (separated_spacedEntries hattributes h)]

end Spaced

/-! ## Spaced arguments -/

/-- A category with a space behind each comma between its arguments is never read as it is without the spaces. It
falls into as many entries as it has arguments, each of which is read for itself, as a name if no argument holds a
parenthesis. -/
theorem parseAll_spaced {c : Category} (h : c.IsWritable) (hsize : 2 ≤ c.attributes.length) :
    parseAll (c.renderWith ",") = [c] ∧
    parseAll (c.renderWith ", ") = c.spacedEntries.map parse ∧
    c.spacedEntries.length = c.attributes.length ∧
    parseAll (c.renderWith ", ") ≠ parseAll (c.renderWith ",") ∧
    ((∀ a ∈ c.attributes, CodePoint.scalar '(' ∉ a.render ∧ CodePoint.scalar ')' ∉ a.render) →
      parseAll (c.renderWith ", ") = c.spacedEntries.map bare) := by
  obtain ⟨first, second, rest, hattributes⟩ : ∃ first second rest, c.attributes = first :: second :: rest := by
    match hc : c.attributes, hsize with
    | first :: second :: rest, _ => exact ⟨first, second, rest, rfl⟩
  have hplain : parseAll (c.renderWith ",") = [c] := parseAll_render h
  have hspaced := parseAll_renderWith_spaced hattributes h
  have hlength := length_spacedEntries hattributes
  refine ⟨hplain, hspaced, hlength, fun heq => ?_, fun hparentheses => ?_⟩
  · have hone := congrArg List.length (hspaced.symm.trans (heq.trans hplain))
    rw [List.length_map, List.length_singleton, hlength] at hone
    omega
  · rw [hspaced, map_parse_spacedEntries hattributes h.name hparentheses]

/-- A positional and a keyed argument. -/
def primaryService : Category := ⟨"svc", [⟨none, "primary"⟩, ⟨some "priority", "1"⟩]⟩

theorem parseAll_spaced_primaryService :
    primaryService.IsWritable ∧ 2 ≤ primaryService.attributes.length ∧
    primaryService.renderWith ", " = Text.ofString "svc(primary, priority=1)" ∧
    parseAll "svc(primary, priority=1)" = [bare "svc(primary,", bare "priority=1)"] := by
  have hwritable : primaryService.IsWritable := by decide
  have hsize : 2 ≤ primaryService.attributes.length := by decide
  have hparentheses : ∀ a ∈ primaryService.attributes,
      CodePoint.scalar '(' ∉ a.render ∧ CodePoint.scalar ')' ∉ a.render := by decide
  obtain ⟨-, -, -, -, hread⟩ := parseAll_spaced hwritable hsize
  exact ⟨hwritable, hsize, rfl, hread hparentheses⟩

/-- A space behind a comma carries a meaning. -/
theorem not_parseAll_primaryService :
    parseAll (primaryService.renderWith ", ") ≠ parseAll (primaryService.renderWith ",") := by
  decide

end ModuleCatalog.Category
