import ModuleCatalog.Proofs.FileSystem.Replacement

/-!
# Later file systems

While several parties change a file system, directories stay, links stay or are replaced by files, and only
what stands where nothing stood at first may go again. So a path that led somewhere once leads there later,
too, or it breaks off at a file that has replaced a link.
-/

namespace ModuleCatalog.FileSystem

/-- What may become of what stands at a location, given what stood there at first. It may stay. Where nothing
stood at first, something that no path leads on through may come, change and go, and a directory may come. And
a file may replace what is no directory. -/
inductive LaterAt (initial before after : Option Node) : Prop
  | same (h : after = before)
  | beside (hinitial : initial = none) (hbefore : ∀ node, before = some node → node.isLeaf)
      (hafter : ∀ target, after ≠ some (.link target))
  | replaced (hbefore : ∀ node, before = some node → node.isDirectory = false)
      (hlink : ∀ target, before = some (.link target) → initial ≠ none)
      (hafter : ∃ leaf : Node, after = some leaf ∧ leaf.isLeaf)

theorem LaterAt.trans {initial a b c : Option Node} (hab : LaterAt initial a b) (hbc : LaterAt initial b c) :
    LaterAt initial a c := by
  cases hab with
  | same h => exact h ▸ hbc
  | beside hinitial hbefore hafter =>
    cases hbc with
    | same h => exact .beside hinitial hbefore (h ▸ hafter)
    | beside _ _ hafter => exact .beside hinitial hbefore hafter
    | replaced _ _ hleaf =>
      obtain ⟨leaf, rfl, hleaf⟩ := hleaf
      refine .beside hinitial hbefore fun target heq => ?_
      cases Option.some.inj heq ▸ hleaf
  | replaced hbefore hlink hafter =>
    cases hbc with
    | same h => exact .replaced hbefore hlink (h ▸ hafter)
    | beside hinitial _ hafter =>
      refine .beside hinitial (fun node hnode => ?_) hafter
      cases node with
      | directory entries => cases hbefore _ hnode
      | link target => exact absurd hinitial (hlink target hnode)
      | _ => rfl
    | replaced _ _ hafter => exact .replaced hbefore hlink hafter

/-- Whether one file system may have become another one. -/
structure Later (initial fs fs' : FileSystem) : Prop where
  working : fs'.working = fs.working
  look : ∀ location,
    LaterAt (initial.top.look location) (fs.top.look location) (fs'.top.look location)

namespace Later

variable {initial a b c : FileSystem} {goal : Goal} {path : Text} {location : List Text}

theorem refl (initial a : FileSystem) : Later initial a a := ⟨rfl, fun _ => .same rfl⟩

theorem trans (hab : Later initial a b) (hbc : Later initial b c) : Later initial a c :=
  ⟨hbc.working.trans hab.working, fun location => (hab.look location).trans (hbc.look location)⟩

/-- Where a link has been replaced by something that no path leads on through. -/
def ReplacesLink (a b : FileSystem) (location : List Text) : Prop :=
  (∃ target, a.top.at? location = some (.link target)) ∧
    ∃ leaf : Node, b.top.at? location = some leaf ∧ leaf.isLeaf

theorem directory (h : Later initial a b) (hat : a.top.look location = some (.directory [])) :
    b.top.look location = some (.directory []) := by
  cases h.look location with
  | same hsame => rw [hsame, hat]
  | beside _ hbefore _ => cases hbefore _ hat
  | replaced hbefore _ _ => cases hbefore _ hat

theorem look_leaf_iff {top leaf : Node} (hleaf : leaf.isLeaf) :
    top.look location = some leaf ↔ top.at? location = some leaf :=
  Node.look_eq_some_iff (Node.isDirectory_of_isLeaf hleaf)

theorem keeps (h : Later initial a b) : Keeps (ReplacesLink a b) a.top b.top where
  directory := by
    intro here entries hhere
    rw [← Node.look_eq_directory_iff]
    exact h.directory (Node.look_eq_directory_iff.2 ⟨entries, hhere⟩)
  link := by
    intro here target hhere
    have hbefore := (Node.look_eq_some_iff rfl).2 hhere
    cases h.look here with
    | same hsame => exact .inl ((Node.look_eq_some_iff rfl).1 (hsame.trans hbefore))
    | beside _ hleaf _ => cases hleaf _ hbefore
    | replaced _ _ hafter =>
      obtain ⟨leaf, hleaf, hisLeaf⟩ := hafter
      have hat := (look_leaf_iff hisLeaf).1 hleaf
      exact .inr ⟨⟨⟨target, hhere⟩, leaf, hat, hisLeaf⟩, leaf, hat, hisLeaf⟩
  not_link := by
    intro here entries name _ hchild target htarget
    have hafter' := (Node.look_eq_some_iff rfl).2 htarget
    cases h.look (here ++ [name]) with
    | same hsame => exact hchild target ((Node.look_eq_some_iff rfl).1 (hsame.symm.trans hafter'))
    | beside _ _ hafter => exact hafter target hafter'
    | replaced _ _ hafter =>
      obtain ⟨leaf, hleaf, hisLeaf⟩ := hafter
      cases Option.some.inj (hleaf.symm.trans hafter') ▸ hisLeaf

/-- A path that led to a location leads there later, or it breaks off at a replaced link. -/
theorem leadsTo_or_stop (h : Later initial a b) (hleads : a.LeadsTo .itself path location) :
    b.LeadsTo .itself path location ∨
      ∀ goal, goal ≠ .fileTarget → b.lookup goal path = .error .notDirectory :=
  (hleads.keeps h.working h.keeps (.inl rfl)).imp_right And.right

end Later

/-- A path leads later to no other location than once. -/
theorem Later.location_eq {initial a b : FileSystem} {path : Text} {location other : List Text}
    (h : Later initial a b) (ha : a.LeadsTo .itself path location) (hb : b.LeadsTo .itself path other) :
    other = location := by
  rcases h.leadsTo_or_stop ha with hleads | hstop
  · exact hb.location_eq hleads
  · obtain ⟨p, hp, -⟩ := hb
    cases hp.symm.trans (hstop .itself (by decide))

end ModuleCatalog.FileSystem
