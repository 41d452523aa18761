import ModuleCatalog.Proofs.FileSystem.Parents

/-!
# Directories without repeated names

No request lists a name twice in a directory that did not do so before. This is what makes an entry of a
directory the same thing as what stands at its location.
-/

namespace ModuleCatalog

theorem Assoc.nodup_keys_erase {α : Type} (name : Text) {entries : List (Text × α)}
    (h : (Assoc.keys entries).Nodup) : (Assoc.keys (Assoc.erase name entries)).Nodup :=
  h.sublist (List.filter_sublist.map Prod.fst)

namespace Node

/-- Whether every directory of a tree lists each name once. -/
def HasDistinctNames (top : Node) : Prop :=
  ∀ location entries, top.at? location = some (.directory entries) → (Assoc.keys entries).Nodup

/-- Only the locations at which something stands have to be looked at. -/
theorem hasDistinctNames_iff {top : Node} : top.HasDistinctNames ↔
    ∀ location ∈ top.locations, (Assoc.keys (((top.at? location).map entries).getD [])).Nodup := by
  constructor
  · intro h location _
    cases hat : top.at? location with
    | none => exact List.nodup_nil
    | some node =>
      cases node with
      | directory entries => exact h location entries hat
      | _ => exact List.nodup_nil
  · intro h location entries hat
    have hnodup := h location (mem_locations (by rw [hat]; exact Option.some_ne_none _))
    rwa [hat] at hnodup

instance (top : Node) : Decidable top.HasDistinctNames := decidable_of_iff _ hasDistinctNames_iff.symm

namespace HasDistinctNames

variable {top : Node}

theorem of_not_directory (h : top.isDirectory = false) : top.HasDistinctNames := by
  intro location entries hat
  cases location with
  | nil =>
    obtain rfl := Option.some.inj hat
    cases h
  | cons name names =>
    rw [at?, Node.entries_eq_nil h] at hat
    cases hat

theorem empty : HasDistinctNames (.directory []) := by
  intro location entries hat
  cases location with
  | nil =>
    obtain rfl := Node.directory.inj (Option.some.inj hat)
    exact List.nodup_nil
  | cons name names => cases hat

theorem below (h : top.HasDistinctNames) {location : List Text} {node : Node}
    (hat : top.at? location = some node) : node.HasDistinctNames := by
  intro rest entries hrest
  apply h (location ++ rest) entries
  rw [at?_append, hat, Option.bind_some, hrest]

theorem child (h : top.HasDistinctNames) {name : Text} {node : Node}
    (hget : Assoc.get? name top.entries = some node) : node.HasDistinctNames :=
  h.below ((at?_singleton name top).trans hget)

/-- A change that repeats no name, and puts nothing into the directory in which names repeat. -/
theorem change {f : List (Text × Node) → List (Text × Node)}
    (hkeys : ∀ entries, (Assoc.keys entries).Nodup → (Assoc.keys (f entries)).Nodup)
    (hentries : ∀ entries, (Assoc.keys entries).Nodup → ∀ name node, Assoc.get? name (f entries) = some node →
      Assoc.get? name entries = some node ∨ node.HasDistinctNames)
    (h : top.HasDistinctNames) (directory : List Text) : (top.change f directory).HasDistinctNames := by
  induction directory generalizing top with
  | nil =>
    cases top with
    | directory entries =>
      intro location entries' hat
      cases location with
      | nil =>
        obtain rfl := Node.directory.inj (Option.some.inj hat)
        exact hkeys entries (h [] entries rfl)
      | cons name names =>
        obtain ⟨node, hget, hat⟩ := Option.bind_eq_some_iff.1 hat
        rcases hentries entries (h [] entries rfl) name node hget with hold | hnode
        · exact (h.child hold) names entries' hat
        · exact hnode names entries' hat
    | _ => exact h
  | cons first rest ih =>
    intro location entries' hat
    cases location with
    | nil =>
      cases top with
      | directory entries =>
        obtain rfl := Node.directory.inj (Option.some.inj hat)
        have hsame := keys_entries_change f first rest (.directory entries)
        exact hsame ▸ h [] entries rfl
      | _ => cases hat
    | cons name names =>
      rw [at?, get?_entries_change] at hat
      obtain ⟨node, hget, hat⟩ := Option.bind_eq_some_iff.1 hat
      obtain ⟨old, hold, rfl⟩ := Option.map_eq_some_iff.1 hget
      have hchild := h.child hold
      split at hat
      · exact ih hchild names entries' hat
      · exact hchild names entries' hat

theorem put (h : top.HasDistinctNames) {node : Node} (hnode : node.HasDistinctNames)
    (directory : List Text) (name : Text) :
    (top.change (Assoc.put name node) directory).HasDistinctNames := by
  apply h.change (fun entries => Assoc.nodup_keys_put name node)
  intro entries _ other found hget
  by_cases hother : other = name
  · rw [hother, Assoc.get?_put_self] at hget
    exact .inr (Option.some.inj hget ▸ hnode)
  · exact .inl (Assoc.get?_put_of_ne hother node entries ▸ hget)

theorem erase (h : top.HasDistinctNames) (directory : List Text) (name : Text) :
    (top.change (Assoc.erase name) directory).HasDistinctNames := by
  apply h.change (fun entries => Assoc.nodup_keys_erase name)
  intro entries _ other found hget
  by_cases hother : other = name
  · rw [hother, Assoc.get?_erase_self] at hget
    cases hget
  · exact .inl (Assoc.get?_erase_of_ne hother entries ▸ hget)

end HasDistinctNames

end Node

namespace FileSystem

open Node (HasDistinctNames)

variable {fs fs' : FileSystem}

theorem hasDistinctNames_putAt (h : fs.top.HasDistinctNames) {node : Node} (hnode : node.HasDistinctNames)
    (location : List Text) : (fs.putAt location node).top.HasDistinctNames := by
  unfold putAt
  split
  · exact h
  · exact h.put hnode _ _

theorem hasDistinctNames_dropAt (h : fs.top.HasDistinctNames) (location : List Text) :
    (fs.dropAt location).top.HasDistinctNames := h.erase _ _

/-! ## Requests -/

theorem hasDistinctNames_ensureDirectory (h : fs.top.HasDistinctNames) (path : Path) :
    (fs.ensureDirectory path).1.top.HasDistinctNames := by
  rcases ensureDirectory_fst fs path with hsame | hmake
  · rwa [hsame]
  · obtain ⟨directory, name, -, heq⟩ := makeDirectory_eq_ok hmake
    rw [heq]
    exact h.put .empty directory name

theorem hasDistinctNames_ensureDirectories (h : fs.top.HasDistinctNames) (path : Path) :
    (fs.ensureDirectories path).1.top.HasDistinctNames := by
  fun_induction fs.ensureDirectories path with
  | case1 fs path after paths hensure hroot =>
    have hafter := hasDistinctNames_ensureDirectory h path
    rwa [hensure] at hafter
  | case2 fs path after paths hensure hroot above hparent ih =>
    have hafter := hasDistinctNames_ensureDirectory h path
    rw [hensure] at hafter
    have habove := ih hafter
    rw [hparent] at habove
    exact hasDistinctNames_ensureDirectory habove path
  | case3 fs path after paths hensure hroot above cause hparent ih =>
    have hafter := hasDistinctNames_ensureDirectory h path
    rw [hensure] at hafter
    have habove := ih hafter
    rwa [hparent] at habove
  | case4 fs path hother => exact hasDistinctNames_ensureDirectory h path

theorem hasDistinctNames_createFrom (h : fs.top.HasDistinctNames) {target temporary : Path} {tries n : Nat}
    (hcreate : fs.createFrom target tries n = .ok (temporary, fs')) : fs'.top.HasDistinctNames := by
  induction tries generalizing n with
  | zero => cases hcreate
  | succ tries ih =>
    simp only [createFrom, bind_eq_ok_iff] at hcreate
    obtain ⟨p, -, hresult⟩ := hcreate
    cases p with
    | entry location node => exact ih hresult
    | free directory name =>
      obtain ⟨-, rfl⟩ := Prod.mk.inj (Except.ok.inj hresult)
      exact h.put (.of_not_directory rfl) directory name

theorem hasDistinctNames_changeFile (h : fs.top.HasDistinctNames) {path : Path} {f : Bytes → Nat → Node}
    (hf : ∀ content mode, (f content mode).isDirectory = false) (hchange : fs.changeFile path f = .ok fs') :
    fs'.top.HasDistinctNames := by
  simp only [changeFile, bind_eq_ok_iff] at hchange
  obtain ⟨p, -, hresult⟩ := hchange
  cases p with
  | free directory name => cases hresult
  | entry location node =>
    cases node with
    | directory entries => cases hresult
    | file content mode =>
      obtain rfl := Except.ok.inj hresult
      exact hasDistinctNames_putAt h (.of_not_directory (hf content mode)) location
    | _ => exact Except.ok.inj hresult ▸ h

theorem hasDistinctNames_replace (h : fs.top.HasDistinctNames) {path target : Path}
    (hreplace : fs.replace path target = .ok fs') : fs'.top.HasDistinctNames := by
  simp only [replace, bind_eq_ok_iff, mapError_eq_ok_iff] at hreplace
  obtain ⟨_, -, _, -, source, hsource, destination, -, hresult⟩ := hreplace
  split at hresult
  · cases hresult
  · cases source with
    | free directory name => cases hresult
    | entry location node =>
      have hnode : node.HasDistinctNames := h.below (lookup_entry hsource)
      have hdropped := hasDistinctNames_dropAt h location
      cases destination with
      | free directory name => exact Except.ok.inj hresult ▸ hdropped.put hnode directory name
      | entry other found =>
        have hmoved := hasDistinctNames_putAt hdropped hnode other
        cases found with
        | directory entries => cases hresult
        | _ =>
          dsimp only at hresult
          split at hresult
          · exact Except.ok.inj hresult ▸ h
          · exact Except.ok.inj hresult ▸ hmoved

end FileSystem

end ModuleCatalog
