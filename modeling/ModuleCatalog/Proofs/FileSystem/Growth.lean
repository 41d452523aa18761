import ModuleCatalog.Proofs.FileSystem.Replacement

/-!
# Files that grow

Opening a file to write to makes it if nothing is there, and bytes are written behind its content. Neither changes
what stands elsewhere. So an open file stays where its path leads, whatever is written to it and to others, and no
bytes are ever lost.
-/

namespace ModuleCatalog

namespace Node

/-- A node with bytes behind its content; what is no file has none. -/
def extended (bytes : Bytes) : Node → Node
  | .file content mode => .file (content ++ bytes) mode
  | node => node

theorem extended_nil (node : Node) : node.extended [] = node := by
  cases node with
  | file content mode => rw [extended, List.append_nil]
  | _ => rfl

theorem extended_extended (a b : Bytes) (node : Node) : (node.extended a).extended b = node.extended (a ++ b) := by
  cases node with
  | file content mode => rw [extended, extended, extended, List.append_assoc]
  | _ => rfl

theorem isLeaf_extended (bytes : Bytes) (node : Node) : (node.extended bytes).isLeaf = node.isLeaf := by
  cases node <;> rfl

theorem extended_eq_link_iff {bytes : Bytes} {node : Node} {target : Text} :
    node.extended bytes = .link target ↔ node = .link target := by
  cases node <;> simp [extended]

end Node

namespace FileSystem

/-! ## Growth -/

/-- What may become of what stands at a location: it stays, perhaps with bytes behind its content. Where nothing
stands, a file or directory may come. -/
inductive GrowsAt (before after : Option Node) : Prop
  | extended (bytes : Bytes) (h : after = before.map (Node.extended bytes))
  | added (hbefore : before = none) (hafter : ∀ target, after ≠ some (.link target))

theorem GrowsAt.of_eq {before after : Option Node} (h : after = before) : GrowsAt before after := by
  refine .extended [] ?_
  cases before with
  | none => exact h
  | some node => rw [h, Option.map_some, Node.extended_nil]

theorem GrowsAt.trans {a b c : Option Node} (hab : GrowsAt a b) (hbc : GrowsAt b c) : GrowsAt a c := by
  cases hab with
  | extended bytes hab =>
    cases hbc with
    | extended more hbc =>
      refine .extended (bytes ++ more) ?_
      rw [hbc, hab, Option.map_map]
      exact congrArg (Option.map · a) (funext (Node.extended_extended bytes more))
    | added hb hc => exact .added (Option.map_eq_none_iff.1 (hab.symm.trans hb)) hc
  | added ha hb =>
    refine .added ha fun target htarget => ?_
    cases hbc with
    | extended more hbc =>
      obtain ⟨node, hnode, heq⟩ := Option.map_eq_some_iff.1 (hbc.symm.trans htarget)
      exact hb target (hnode.trans (congrArg some (Node.extended_eq_link_iff.1 heq)))
    | added _ hc => exact hc target htarget

/-- Whether a file system may have become another one while files have been opened and written to. -/
structure Grows (fs after : FileSystem) : Prop where
  working : after.working = fs.working
  look : ∀ location, GrowsAt (fs.top.look location) (after.top.look location)

namespace Grows

variable {a b c : FileSystem}

theorem refl (a : FileSystem) : Grows a a := ⟨rfl, fun _ => .of_eq rfl⟩

theorem trans (hab : Grows a b) (hbc : Grows b c) : Grows a c :=
  ⟨hbc.working.trans hab.working, fun location => (hab.look location).trans (hbc.look location)⟩

/-- What is no file stays as it is. -/
theorem look_eq_some (h : Grows a b) {location : List Text} {node : Node}
    (hnode : ∀ bytes, node.extended bytes = node) (hat : a.top.look location = some node) :
    b.top.look location = some node := by
  cases h.look location with
  | extended bytes hb => rw [hb, hat, Option.map_some, hnode bytes]
  | added hnone _ => cases hnone.symm.trans hat

/-- No link goes and none comes. -/
theorem keeps (h : Grows a b) : Keeps (fun _ => False) a.top b.top where
  directory := by
    intro here entries hhere
    rw [← Node.look_eq_directory_iff]
    exact h.look_eq_some (fun _ => rfl) (Node.look_eq_directory_iff.2 ⟨entries, hhere⟩)
  link := by
    intro here target hhere
    rw [← Node.look_eq_some_iff rfl] at hhere ⊢
    exact .inl (h.look_eq_some (fun _ => rfl) hhere)
  not_link := by
    intro here entries name _ hchild target htarget
    rw [← Node.look_eq_some_iff rfl] at htarget
    cases h.look (here ++ [name]) with
    | extended bytes hb =>
      obtain ⟨node, hnode, heq⟩ := Option.map_eq_some_iff.1 (hb.symm.trans htarget)
      rw [Node.extended_eq_link_iff.1 heq] at hnode
      exact hchild target ((Node.look_eq_some_iff rfl).1 hnode)
    | added _ hafter => exact hafter target htarget

theorem leadsTo (h : Grows a b) {goal : Goal} {path : Text} {location : List Text}
    (hleads : a.LeadsTo goal path location) : b.LeadsTo goal path location :=
  hleads.of_keeps h.working h.keeps

end Grows

/-! ## Open files -/

/-- Whether a path leads to something at a location that can be written to. -/
structure IsOpen (fs : FileSystem) (path : Path) (location : List Text) : Prop where
  checked : checkText path.toText = .ok ()
  leads : fs.LeadsTo .target path.toText location
  leaf : ∃ leaf : Node, leaf.isLeaf ∧ fs.top.look location = some leaf

/-- An open file stays open at its location. -/
theorem IsOpen.of_grows {a b : FileSystem} {path : Path} {location : List Text} (h : a.IsOpen path location)
    (hgrows : Grows a b) : b.IsOpen path location := by
  obtain ⟨leaf, hleaf, hlook⟩ := h.leaf
  refine ⟨h.checked, hgrows.leadsTo h.leads, ?_⟩
  cases hgrows.look location with
  | extended bytes hb =>
    rw [hlook, Option.map_some] at hb
    exact ⟨leaf.extended bytes, (Node.isLeaf_extended bytes leaf).trans hleaf, hb⟩
  | added hnone _ => cases hnone.symm.trans hlook

/-! ## Writing -/

/-- What is seen of a file system after bytes have been written to what stands at a location. -/
structure Writes (fs : FileSystem) (location : List Text) (bytes : Bytes) (after : FileSystem) : Prop where
  working : after.working = fs.working
  extended : after.top.look location = (fs.top.look location).map (Node.extended bytes)
  others : ∀ other, other ≠ location → after.top.look other = fs.top.look other

theorem Writes.grows {fs after : FileSystem} {location : List Text} {bytes : Bytes}
    (h : Writes fs location bytes after) : Grows fs after := by
  refine ⟨h.working, fun other => ?_⟩
  by_cases hother : other = location
  · rw [hother]
    exact .extended bytes h.extended
  · exact .of_eq (h.others other hother)

/-- Nothing is written to what is no file. -/
theorem writes_self {fs : FileSystem} {location : List Text} {node : Node} {bytes : Bytes}
    (hlook : fs.top.look location = some node) (hnode : node.extended bytes = node) : Writes fs location bytes fs where
  working := rfl
  extended := by rw [hlook, Option.map_some, hnode]
  others _ _ := rfl

theorem writes_put {fs : FileSystem} {directory : List Text} {name : Text} {content : Bytes} {mode : Nat}
    (hat : fs.top.at? (directory ++ [name]) = some (.file content mode)) (bytes : Bytes) :
    Writes fs (directory ++ [name]) bytes (fs.put directory name (.file (content ++ bytes) mode)) := by
  obtain ⟨entries, hdirectory⟩ := exists_directory_of_child hat
  refine ⟨rfl, ?_, fun other hother => ?_⟩
  · rw [(Node.look_eq_some_iff rfl).2 hat]
    exact (Node.look_eq_some_iff rfl).2 (Node.at?_put hdirectory name _)
  · exact look_put hdirectory rfl (Node.endsAt_of_some hat rfl).entries_eq_nil hother

/-- Bytes are written where the path leads. -/
theorem append_eq_ok {fs after : FileSystem} {path : Path} {bytes : Bytes} (h : fs.append path bytes = .ok after) :
    ∃ location, fs.LeadsTo .target path.toText location ∧ Writes fs location bytes after := by
  simp only [append, changeFile, bind_eq_ok_iff, locate_eq_ok_iff] at h
  obtain ⟨p, ⟨-, hlookup⟩, hresult⟩ := h
  cases p with
  | free directory name => cases hresult
  | entry location node =>
    have hat := lookup_entry hlookup
    have hleads : fs.LeadsTo .target path.toText location := ⟨_, hlookup, rfl⟩
    refine ⟨location, hleads, ?_⟩
    cases node with
    | directory entries => cases hresult
    | file content mode =>
      obtain rfl := Except.ok.inj hresult
      have hfile : ∀ found, fs.top.at? location = some found → found.isDirectory = false := by
        intro found hfound
        rw [Option.some.inj (hfound.symm.trans hat)]
        rfl
      obtain ⟨directory, name, rfl⟩ := exists_eq_concat (hleads.location_ne_nil hfile)
      rw [putAt_concat]
      exact writes_put hat bytes
    | link target =>
      obtain rfl := Except.ok.inj hresult
      exact writes_self ((Node.look_eq_some_iff rfl).2 hat) rfl
    | special reading =>
      obtain rfl := Except.ok.inj hresult
      exact writes_self ((Node.look_eq_some_iff rfl).2 hat) rfl

/-- An open file can be written to. -/
theorem IsOpen.append {fs : FileSystem} {path : Path} {location : List Text} (h : fs.IsOpen path location)
    (bytes : Bytes) : ∃ after, fs.append path bytes = .ok after ∧ Writes fs location bytes after := by
  obtain ⟨leaf, hleaf, hlook⟩ := h.leaf
  have hat := (Node.look_eq_some_iff (Node.isDirectory_of_isLeaf hleaf)).1 hlook
  have hlocate := locate_eq_ok_iff.2 ⟨h.checked, h.leads.lookup_eq_entry hat⟩
  have hsome : ∃ after, fs.append path bytes = .ok after := by
    simp only [FileSystem.append, changeFile, hlocate, bind, Except.bind]
    cases leaf with
    | directory entries => cases hleaf
    | _ => exact ⟨_, rfl⟩
  obtain ⟨after, happend⟩ := hsome
  obtain ⟨other, hleads, hwrites⟩ := append_eq_ok happend
  obtain rfl := h.leads.location_eq hleads
  exact ⟨after, happend, hwrites⟩

/-! ## Opening -/

/-- What is seen of a file system after the file at a location has been opened. -/
structure Opens (fs : FileSystem) (location : List Text) (after : FileSystem) : Prop where
  working : after.working = fs.working
  file : after.top.look location = fs.top.look location ∨
    (fs.top.look location = none ∧ after.top.look location = some (.file [] 0o644))
  others : ∀ other, other ≠ location → after.top.look other = fs.top.look other

theorem Opens.grows {fs after : FileSystem} {location : List Text} (h : Opens fs location after) :
    Grows fs after := by
  refine ⟨h.working, fun other => ?_⟩
  by_cases hother : other = location
  · subst hother
    rcases h.file with hsame | ⟨hnone, hnew⟩
    · exact .of_eq hsame
    · exact .added hnone fun target htarget => nomatch hnew.symm.trans htarget
  · exact .of_eq (h.others other hother)

/-- A file that has been opened is open where its path leads. -/
theorem openFile_eq_ok {fs after : FileSystem} {path : Path} (h : fs.openFile path = .ok after) :
    ∃ location, Opens fs location after ∧ after.IsOpen path location := by
  simp only [openFile, bind_eq_ok_iff, locate_eq_ok_iff] at h
  obtain ⟨p, ⟨hchecked, hlookup⟩, hresult⟩ := h
  have hleads : fs.LeadsTo .fileTarget path.toText p.location := ⟨p, hlookup, rfl⟩
  refine ⟨p.location, ?_⟩
  suffices hopens : Opens fs p.location after ∧ ∃ leaf : Node, leaf.isLeaf ∧ after.top.look p.location = some leaf by
    have hafter := hopens.1.grows.leadsTo hleads
    exact ⟨hopens.1, hchecked, hafter.target (hafter.not_link (by decide)), hopens.2⟩
  cases p with
  | entry location node =>
    have hat := lookup_entry hlookup
    have hleaf : node.isLeaf ∧ after = fs := by
      cases node with
      | directory entries => cases hresult
      | link target => exact absurd hat (hleads.not_link (by decide) target)
      | _ => exact ⟨rfl, (Except.ok.inj hresult).symm⟩
    obtain ⟨hleaf, rfl⟩ := hleaf
    have hlook := (Node.look_eq_some_iff (Node.isDirectory_of_isLeaf hleaf)).2 hat
    exact ⟨⟨rfl, .inl rfl, fun _ _ => rfl⟩, node, hleaf, hlook⟩
  | free directory name =>
    obtain rfl := Except.ok.inj hresult
    obtain ⟨⟨entries, hdirectory⟩, hfree⟩ := lookup_free hlookup
    have hnew := (Node.look_eq_some_iff rfl).2 (Node.at?_put hdirectory name (.file [] 0o644))
    refine ⟨⟨rfl, .inr ⟨Node.look_eq_none_iff.2 hfree, hnew⟩, ?_⟩, _, rfl, hnew⟩
    intro other hother
    exact look_put hdirectory rfl (Node.endsAt_of_none hfree).entries_eq_nil hother

end FileSystem

end ModuleCatalog
