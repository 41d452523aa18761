import ModuleCatalog.FileSystem.Change
import ModuleCatalog.Proofs.Fallible
import ModuleCatalog.Proofs.FileSystem.Leading

/-!
# Missing directories

Making a directory with the missing ones above it adds directories only, each of them where a part of the
path leads. This also holds of the directories that have been made when a later request fails.
-/

namespace ModuleCatalog.FileSystem

/-- What is seen of a file system after missing directories of a path have been added. -/
structure AddsParents (fs fs' : FileSystem) (path : Path) : Prop where
  working : fs'.working = fs.working
  homes : fs'.homes = fs.homes
  look : ∀ location, fs'.top.look location = fs.top.look location ∨
    (fs.top.look location = none ∧ fs'.top.look location = some (.directory []) ∧
      ∃ count, fs'.LeadsTo .target (path.upTo count).toText location)

theorem AddsParents.refl (fs : FileSystem) (path : Path) : AddsParents fs fs path :=
  ⟨rfl, rfl, fun _ => .inl rfl⟩

/-- No link comes with the directories. -/
theorem AddsParents.look_ne_link {fs fs' : FileSystem} {path : Path} (h : AddsParents fs fs' path)
    {location : List Text} (hlink : ∀ target, fs.top.look location ≠ some (.link target)) (target : Text) :
    fs'.top.look location ≠ some (.link target) := by
  intro hafter
  rcases h.look location with hsame | ⟨-, hadded, -⟩
  · exact hlink target (hsame ▸ hafter)
  · cases hafter.symm.trans hadded

/-! ## Parts of paths -/

theorem upTo_length (path : Path) : path.upTo path.parts.length = path := by
  rw [Path.upTo, List.take_length]

theorem exists_parent_upTo (path : Path) (count : Nat) :
    ∃ count', (path.upTo count).parent = path.upTo count' := by
  refine ⟨min ((path.parts.take count).length - 1) count, ?_⟩
  simp only [Path.parent, Path.upTo, List.dropLast_eq_take, List.take_take]

/-! ## Requests -/

theorem locate_eq_ok_iff {fs : FileSystem} {goal : Goal} {path : Text} {p : Place} :
    fs.locate goal path = .ok p ↔ checkText path = .ok () ∧ fs.lookup goal path = .ok p := by
  simp only [locate, bind_eq_ok_iff, mapError_eq_ok_iff]
  exact ⟨fun ⟨_, hcheck, hlookup⟩ => ⟨hcheck, hlookup⟩, fun ⟨hcheck, hlookup⟩ => ⟨(), hcheck, hlookup⟩⟩

theorem lookup_free {fs : FileSystem} {goal : Goal} {path : Text} {directory : List Text} {name : Text}
    (h : fs.lookup goal path = .ok (.free directory name)) :
    (∃ entries, fs.top.at? directory = some (.directory entries)) ∧
      fs.top.at? (directory ++ [name]) = none :=
  (lookup_eq_ok_iff.1 h).2.2.stands

theorem lookup_entry {fs : FileSystem} {goal : Goal} {path : Text} {location : List Text} {node : Node}
    (h : fs.lookup goal path = .ok (.entry location node)) : fs.top.at? location = some node :=
  (lookup_eq_ok_iff.1 h).2.2.stands

theorem makeDirectory_eq_ok {fs fs' : FileSystem} {path : Path} (h : fs.makeDirectory path = .ok fs') :
    ∃ directory name, fs.lookup .itself path.toText = .ok (.free directory name) ∧
      fs' = fs.put directory name (.directory []) := by
  simp only [makeDirectory, bind_eq_ok_iff, locate_eq_ok_iff] at h
  obtain ⟨p, ⟨-, hp⟩, hresult⟩ := h
  cases p with
  | entry location node => cases hresult
  | free directory name => exact ⟨directory, name, hp, (Except.ok.inj hresult).symm⟩

/-- A node without entries that is put where nothing has entries shows there only. -/
theorem look_put {fs : FileSystem} {directory location : List Text} {name : Text} {node : Node}
    {entries : List (Text × Node)} (hdirectory : fs.top.at? directory = some (.directory entries))
    (hnode : node.entries = [])
    (hbefore : ∀ found, fs.top.at? (directory ++ [name]) = some found → found.entries = [])
    (hlocation : location ≠ directory ++ [name]) :
    (fs.put directory name node).top.look location = fs.top.look location := by
  have hnew := Node.at?_put hdirectory name node
  apply (Node.agreeOff_put directory name node fs.top).look_eq
  · intro found hfound
    rw [← Option.some.inj (hnew.symm.trans hfound)]
    exact hnode
  · exact hbefore
  · exact hlocation

/-- One more directory, where a part of the path leads. -/
theorem AddsParents.makeDirectory {fs before after : FileSystem} {path : Path} {count : Nat}
    (h : AddsParents fs before path) (hmake : before.makeDirectory (path.upTo count) = .ok after) :
    AddsParents fs after path := by
  obtain ⟨directory, name, hlookup, rfl⟩ := makeDirectory_eq_ok hmake
  obtain ⟨⟨entries, hdirectory⟩, hfree⟩ := lookup_free hlookup
  have hnew := Node.at?_put hdirectory name (.directory [])
  have hoff := (Node.agreeOff_put directory name (.directory []) before.top).symm
  have hends := Node.endsAt_of_none hfree
  have hworking : (before.put directory name (.directory [])).working = before.working := rfl
  have hlink : ∀ target, (before.put directory name (.directory [])).top.at? (directory ++ [name]) ≠
      some (.link target) := by
    intro target htarget
    cases hnew.symm.trans htarget
  refine ⟨h.working, h.homes, fun location => ?_⟩
  by_cases hlocation : location = directory ++ [name]
  · subst hlocation
    have hbefore := Node.look_eq_none_iff.2 hfree
    have hleads : before.LeadsTo .itself (path.upTo count).toText (directory ++ [name]) :=
      ⟨_, hlookup, rfl⟩
    rcases h.look (directory ++ [name]) with hsame | ⟨-, hadded, -⟩
    · refine .inr ⟨hsame ▸ hbefore, Node.look_eq_directory_iff.2 ⟨[], hnew⟩, count, ?_⟩
      exact (hleads.transfer hworking hoff hends hlink).target hlink
    · cases hbefore.symm.trans hadded
  · rw [look_put hdirectory rfl hends.entries_eq_nil hlocation]
    rcases h.look location with hkept | ⟨hnone, hadded, other, hleads⟩
    · exact .inl hkept
    · exact .inr ⟨hnone, hadded, other, hleads.transfer hworking hoff hends hlink⟩

theorem ensureDirectory_fst (fs : FileSystem) (path : Path) :
    (fs.ensureDirectory path).1 = fs ∨ fs.makeDirectory path = .ok (fs.ensureDirectory path).1 := by
  unfold ensureDirectory
  split
  · next h => exact .inr h
  · exact .inl rfl
  · split <;> exact .inl rfl
  · exact .inl rfl

theorem AddsParents.ensureDirectory {fs before : FileSystem} {path part : Path} {count : Nat}
    (h : AddsParents fs before path) (hpart : part = path.upTo count) :
    AddsParents fs (before.ensureDirectory part).1 path := by
  subst hpart
  rcases ensureDirectory_fst before (path.upTo count) with hsame | hmake
  · rwa [hsame]
  · exact h.makeDirectory hmake

theorem AddsParents.ensureDirectories {fs before : FileSystem} {path part : Path} {count : Nat}
    (h : AddsParents fs before path) (hpart : part = path.upTo count) :
    AddsParents fs (before.ensureDirectories part).1 path := by
  fun_induction before.ensureDirectories part generalizing count with
  | case1 before part after paths hensure hroot =>
    have hafter := h.ensureDirectory hpart
    rwa [hensure] at hafter
  | case2 before part after paths hensure hroot above hparent ih =>
    have hafter := h.ensureDirectory hpart
    rw [hensure] at hafter
    obtain ⟨count', hcount'⟩ := exists_parent_upTo path count
    have habove := ih hafter (hpart ▸ hcount')
    rw [hparent] at habove
    exact habove.ensureDirectory hpart
  | case3 before part after paths hensure hroot above cause hparent ih =>
    have hafter := h.ensureDirectory hpart
    rw [hensure] at hafter
    obtain ⟨count', hcount'⟩ := exists_parent_upTo path count
    have habove := ih hafter (hpart ▸ hcount')
    rwa [hparent] at habove
  | case4 before part hother => exact h.ensureDirectory hpart

/-- Directories are made for the parts of a path only, however far the request comes. -/
theorem addsParents_ensureDirectories (fs : FileSystem) (path : Path) (count : Nat) :
    AddsParents fs (fs.ensureDirectories (path.upTo count)).1 path :=
  (AddsParents.refl fs path).ensureDirectories rfl

/-! ## Directories that are there -/

theorem isDirectory_eq_true_iff {fs : FileSystem} {path : Path} : fs.isDirectory path = .ok true ↔
    ∃ location entries, fs.locate .target path.toText = .ok (.entry location (.directory entries)) := by
  unfold isDirectory node? status
  cases hlocate : fs.locate .target path.toText with
  | error cause =>
    cases cause with
    | fault fault paths => cases hfault : isAbsence fault <;> simp [bind, Except.bind, hfault, Except.map]
    | _ => simp [bind, Except.bind, Except.map]
  | ok p =>
    cases p with
    | free directory name => simp [bind, Except.bind, Except.map, isAbsence]
    | entry location node => cases node <;> simp [bind, Except.bind, Except.map, Node.isDirectory]

theorem isDirectory_of_ensureDirectory {fs after : FileSystem} {path : Path}
    (h : fs.ensureDirectory path = (after, .ok ())) : after.isDirectory path = .ok true := by
  unfold ensureDirectory at h
  split at h
  · next made hmake =>
    obtain ⟨rfl, -⟩ := Prod.mk.inj h
    simp only [makeDirectory, bind_eq_ok_iff, locate_eq_ok_iff] at hmake
    obtain ⟨p, ⟨hchecked, hlookup⟩, hresult⟩ := hmake
    cases p with
    | entry location node => cases hresult
    | free directory name =>
      obtain rfl := Except.ok.inj hresult
      obtain ⟨⟨entries, hdirectory⟩, hfree⟩ := lookup_free hlookup
      have hnew := Node.at?_put hdirectory name (.directory [])
      have hlink : ∀ target, (fs.put directory name (.directory [])).top.at? (directory ++ [name]) ≠
          some (.link target) := by
        intro target htarget
        cases hnew.symm.trans htarget
      have hoff := (Node.agreeOff_put directory name (.directory []) fs.top).symm
      have hbefore : fs.LeadsTo .itself path.toText (directory ++ [name]) := ⟨_, hlookup, rfl⟩
      have hworking : (fs.put directory name (.directory [])).working = fs.working := rfl
      have hleads := hbefore.transfer hworking hoff (Node.endsAt_of_none hfree) hlink
      have hlocate := locate_eq_ok_iff.2 ⟨hchecked, (hleads.target hlink).lookup_eq_entry hnew⟩
      exact isDirectory_eq_true_iff.2 ⟨_, _, hlocate⟩
  · cases (Prod.mk.inj h).2
  · split at h
    · next hdirectory => rwa [← (Prod.mk.inj h).1]
    · cases (Prod.mk.inj h).2
    · cases (Prod.mk.inj h).2
  · cases (Prod.mk.inj h).2

theorem isDirectory_of_ensureDirectories {fs after : FileSystem} {path : Path}
    (h : fs.ensureDirectories path = (after, .ok ())) : after.isDirectory path = .ok true := by
  rw [ensureDirectories] at h
  split at h
  · split at h
    · cases (Prod.mk.inj h).2
    · split at h
      · exact isDirectory_of_ensureDirectory h
      · cases (Prod.mk.inj h).2
  · exact isDirectory_of_ensureDirectory h

theorem ensureDirectory_of_isDirectory {fs : FileSystem} {path : Path} (h : fs.isDirectory path = .ok true) :
    fs.ensureDirectory path = (fs, .ok ()) := by
  obtain ⟨location, entries, hlocate⟩ := isDirectory_eq_true_iff.1 h
  obtain ⟨hchecked, hlookup⟩ := locate_eq_ok_iff.1 hlocate
  obtain ⟨hempty, hlong, hwalk⟩ := lookup_eq_ok_iff.1 hlookup
  have hentry : ∃ location node, fs.locate .itself path.toText = .ok (.entry location node) := by
    rcases hwalk.itself_of_target with hitself | ⟨directory, name, target, _, hitself, -⟩
    · exact ⟨_, _, locate_eq_ok_iff.2 ⟨hchecked, lookup_eq_ok_iff.2 ⟨hempty, hlong, hitself⟩⟩⟩
    · exact ⟨_, _, locate_eq_ok_iff.2 ⟨hchecked, lookup_eq_ok_iff.2 ⟨hempty, hlong, hitself⟩⟩⟩
  obtain ⟨other, node, hother⟩ := hentry
  have hmake : fs.makeDirectory path = .error (.fault .exists [path.toText]) := by
    simp only [makeDirectory, hother, bind, Except.bind]
  simp only [ensureDirectory, hmake, h]

theorem ensureDirectories_of_isDirectory {fs : FileSystem} {path : Path}
    (h : fs.isDirectory path = .ok true) : fs.ensureDirectories path = (fs, .ok ()) := by
  rw [ensureDirectories, ensureDirectory_of_isDirectory h]

/-! ## Files that are there -/

namespace AddsParents

variable {fs fs' : FileSystem} {path : Path}

theorem at?_eq_some (h : AddsParents fs fs' path) {location : List Text} {node : Node}
    (hnode : node.isDirectory = false) (hat : fs.top.at? location = some node) :
    fs'.top.at? location = some node := by
  rw [← Node.look_eq_some_iff hnode] at hat ⊢
  rcases h.look location with hsame | ⟨hnone, -⟩
  · rw [hsame, hat]
  · cases hnone.symm.trans hat

/-- No link goes and none comes. -/
theorem keeps (h : AddsParents fs fs' path) : Keeps (fun _ => False) fs.top fs'.top where
  directory := by
    intro here entries hhere
    have hlook := Node.look_eq_directory_iff.2 ⟨entries, hhere⟩
    rw [← Node.look_eq_directory_iff]
    rcases h.look here with hsame | ⟨hnone, -⟩
    · rw [hsame, hlook]
    · cases hnone.symm.trans hlook
  link hhere := .inl (h.at?_eq_some rfl hhere)
  not_link := by
    intro here entries name _ hchild target htarget
    have hlook := (Node.look_eq_some_iff rfl).2 htarget
    rcases h.look (here ++ [name]) with hsame | ⟨-, hadded, -⟩
    · exact hchild target ((Node.look_eq_some_iff rfl).1 (hsame.symm.trans hlook))
    · cases hadded.symm.trans hlook

theorem leadsTo (h : AddsParents fs fs' path) {goal : Goal} {text : Text} {location : List Text}
    (hleads : fs.LeadsTo goal text location) : fs'.LeadsTo goal text location :=
  hleads.of_keeps h.working h.keeps

/-- What is no directory is still found where it was found. -/
theorem locate (h : AddsParents fs fs' path) {goal : Goal} {text : Text} {location : List Text} {node : Node}
    (hnode : node.isDirectory = false) (hlocate : fs.locate goal text = .ok (.entry location node)) :
    fs'.locate goal text = .ok (.entry location node) := by
  obtain ⟨hchecked, hlookup⟩ := locate_eq_ok_iff.1 hlocate
  have hleads : fs.LeadsTo goal text location := ⟨_, hlookup, rfl⟩
  have hat := h.at?_eq_some hnode (lookup_entry hlookup)
  exact locate_eq_ok_iff.2 ⟨hchecked, (h.leadsTo hleads).lookup_eq_entry hat⟩

/-- A file that could be read has kept its content. -/
theorem read (h : AddsParents fs fs' path) {other : Path} {content : Bytes}
    (hread : fs.read other = .ok content) : fs'.read other = .ok content := by
  simp only [FileSystem.read, bind_eq_ok_iff] at hread ⊢
  obtain ⟨p, hp, hcontent⟩ := hread
  cases p with
  | free directory name => cases hcontent
  | entry location node =>
    have hnode : node.isDirectory = false := by
      cases node with
      | directory entries => cases hcontent
      | _ => rfl
    exact ⟨_, h.locate hnode hp, hcontent⟩

end AddsParents

end ModuleCatalog.FileSystem
