import ModuleCatalog.FileSystem.Basic

/-!
# What stands at a location

A file system is observed location by location: what stands there, apart from the entries of a directory.
Putting a node into a directory, or taking one out, changes nothing but the locations from the node's own
one on.
-/

namespace ModuleCatalog

/-! ## Entries -/

namespace Assoc

variable {α : Type}

theorem get?_erase_self (name : Text) (entries : List (Text × α)) :
    get? name (erase name entries) = none := by
  induction entries with
  | nil => rfl
  | cons entry entries ih =>
    obtain ⟨k, a⟩ := entry
    by_cases hk : k = name
    · rw [erase, List.filter_cons_of_neg (by simp [hk])]
      exact ih
    · rw [erase, List.filter_cons_of_pos (by simp [hk]), get?, if_neg hk]
      exact ih

theorem get?_erase_of_ne {name other : Text} (h : other ≠ name) (entries : List (Text × α)) :
    get? other (erase name entries) = get? other entries := by
  induction entries with
  | nil => rfl
  | cons entry entries ih =>
    obtain ⟨k, a⟩ := entry
    by_cases hk : k = name
    · rw [erase, List.filter_cons_of_neg (by simp [hk]), get?, if_neg (hk ▸ Ne.symm h)]
      exact ih
    · rw [erase, List.filter_cons_of_pos (by simp [hk]), get?, get?]
      by_cases hother : k = other
      · rw [if_pos hother, if_pos hother]
      · rw [if_neg hother, if_neg hother]
        exact ih

theorem get?_map (key : Text) (f : Text → α → α) (entries : List (Text × α)) :
    get? key (entries.map fun (name, a) => (name, f name a)) = (get? key entries).map (f key) := by
  induction entries with
  | nil => rfl
  | cons entry entries ih =>
    obtain ⟨k, a⟩ := entry
    by_cases hk : k = key
    · simp [get?, hk]
    · simp [get?, hk, ih]

theorem mem_of_get? {name : Text} {a : α} {entries : List (Text × α)} (h : get? name entries = some a) :
    (name, a) ∈ entries := by
  induction entries with
  | nil => cases h
  | cons entry entries ih =>
    obtain ⟨k, b⟩ := entry
    by_cases hk : k = name
    · rw [get?, if_pos hk] at h
      rw [hk, Option.some.inj h]
      exact List.mem_cons_self
    · rw [get?, if_neg hk] at h
      exact List.mem_cons_of_mem _ (ih h)

end Assoc

namespace Node

/-- Induction over a tree, from the entries of a directory to the directory. -/
@[elab_as_elim]
theorem induction {motive : Node → Prop} (leaf : ∀ node : Node, node.isDirectory = false → motive node)
    (directory : ∀ entries, (∀ entry ∈ entries, motive entry.2) → motive (.directory entries)) :
    ∀ node, motive node
  | .directory entries => directory entries fun entry _hentry => induction leaf directory entry.2
  | .file content mode => leaf (.file content mode) rfl
  | .link target => leaf (.link target) rfl
  | .special reading => leaf (.special reading) rfl
termination_by node => sizeOf node
decreasing_by
  have hentries := List.sizeOf_lt_of_mem _hentry
  obtain ⟨name, node⟩ := entry
  simp only [Prod.mk.sizeOf_spec, Node.directory.sizeOf_spec] at hentries ⊢
  omega

/-! ## Nodes below nodes -/

theorem at?_append (names rest : List Text) (top : Node) :
    top.at? (names ++ rest) = (top.at? names).bind (at? rest) := by
  induction names generalizing top with
  | nil => rfl
  | cons name names ih =>
    rw [List.cons_append, at?, at?]
    cases Assoc.get? name top.entries with
    | none => rfl
    | some node => exact ih node

theorem at?_singleton (name : Text) (top : Node) : top.at? [name] = Assoc.get? name top.entries := by
  rw [at?]
  cases Assoc.get? name top.entries with
  | none => rfl
  | some node => rfl

theorem at?_child {top : Node} {here : List Text} {entries : List (Text × Node)}
    (h : top.at? here = some (.directory entries)) (name : Text) :
    top.at? (here ++ [name]) = Assoc.get? name entries := by
  rw [at?_append, h, Option.bind_some, at?_singleton, Node.entries]

/-! ## Observations -/

/-- A node without the entries that it has as a directory. -/
def shallow : Node → Node
  | .directory _ => .directory []
  | node => node

/-- What stands at a location. -/
def look (top : Node) (location : List Text) : Option Node := (top.at? location).map shallow

/-- Whether no path leads on through a node. -/
def isLeaf : Node → Bool
  | .file .. | .special _ => true
  | .directory _ | .link _ => false

theorem isDirectory_of_isLeaf {node : Node} (h : node.isLeaf) : node.isDirectory = false := by
  cases node with
  | directory entries => cases h
  | _ => rfl

/-- Whether no path leads on through a location. -/
def EndsAt (top : Node) (location : List Text) : Prop :=
  ∀ node, top.at? location = some node → node.isLeaf

theorem endsAt_of_none {top : Node} {location : List Text} (h : top.at? location = none) :
    top.EndsAt location := by
  intro node hnode
  rw [h] at hnode
  cases hnode

theorem endsAt_of_some {top node : Node} {location : List Text} (h : top.at? location = some node)
    (hleaf : node.isLeaf) : top.EndsAt location := by
  intro other hother
  rw [h] at hother
  exact Option.some.inj hother ▸ hleaf

theorem shallow_of_not_directory {node : Node} (h : node.isDirectory = false) : node.shallow = node := by
  cases node with
  | directory entries => cases h
  | _ => rfl

theorem isDirectory_shallow (node : Node) : node.shallow.isDirectory = node.isDirectory := by
  cases node <;> rfl

/-- Nodes that look the same are the same, or directories. -/
theorem eq_or_directories_of_shallow {node node' : Node} (h : node.shallow = node'.shallow) :
    node = node' ∨ ∃ entries entries', node = .directory entries ∧ node' = .directory entries' := by
  cases node with
  | directory entries =>
    cases node' with
    | directory entries' => exact .inr ⟨entries, entries', rfl, rfl⟩
    | _ => cases h
  | _ =>
    cases node' with
    | directory entries' => cases h
    | _ => exact .inl h

theorem look_eq_none_iff {top : Node} {location : List Text} :
    top.look location = none ↔ top.at? location = none := Option.map_eq_none_iff

theorem look_eq_some_iff {top node : Node} {location : List Text} (h : node.isDirectory = false) :
    top.look location = some node ↔ top.at? location = some node := by
  rw [look, Option.map_eq_some_iff]
  constructor
  · rintro ⟨found, hfound, rfl⟩
    rw [isDirectory_shallow] at h
    rw [hfound, shallow_of_not_directory h]
  · exact fun hat => ⟨node, hat, shallow_of_not_directory h⟩

theorem look_eq_directory_iff {top : Node} {location : List Text} :
    top.look location = some (.directory []) ↔ ∃ entries, top.at? location = some (.directory entries) := by
  rw [look, Option.map_eq_some_iff]
  constructor
  · rintro ⟨found, hfound, hshallow⟩
    cases found with
    | directory entries => exact ⟨entries, hfound⟩
    | _ => cases hshallow
  · rintro ⟨entries, hat⟩
    exact ⟨_, hat, rfl⟩

theorem not_directory_look_iff {top : Node} {location : List Text} :
    (∀ node, top.look location = some node → node.isDirectory = false) ↔
      ∀ node, top.at? location = some node → node.isDirectory = false := by
  constructor
  · intro h node hnode
    have hlook : top.look location = some node.shallow := by rw [look, hnode, Option.map_some]
    rw [← isDirectory_shallow]
    exact h _ hlook
  · intro h node hnode
    obtain ⟨found, hfound, rfl⟩ := Option.map_eq_some_iff.1 hnode
    rw [isDirectory_shallow]
    exact h found hfound

/-- Whether two trees are the same but for what stands at a location and below it. -/
def AgreeOff (location : List Text) (a b : Node) : Prop :=
  ∀ other, ¬ location <+: other → a.look other = b.look other

namespace AgreeOff

theorem symm {location : List Text} {a b : Node} (h : AgreeOff location a b) : AgreeOff location b a :=
  fun other hother => (h other hother).symm

theorem trans {location : List Text} {a b c : Node} (hab : AgreeOff location a b)
    (hbc : AgreeOff location b c) : AgreeOff location a c :=
  fun other hother => (hab other hother).trans (hbc other hother)

section At

variable {location other : List Text} {a b : Node}

theorem at?_eq_directory (h : AgreeOff location a b) (hother : ¬ location <+: other)
    {entries : List (Text × Node)} (hat : a.at? other = some (.directory entries)) :
    ∃ entries, b.at? other = some (.directory entries) := by
  rw [← look_eq_directory_iff, ← h other hother, look_eq_directory_iff]
  exact ⟨entries, hat⟩

theorem at?_eq_some (h : AgreeOff location a b) (hother : ¬ location <+: other) {node : Node}
    (hnode : node.isDirectory = false) (hat : a.at? other = some node) : b.at? other = some node := by
  rw [← look_eq_some_iff hnode] at hat ⊢
  rw [← h other hother, hat]

end At

end AgreeOff

theorem entries_eq_nil {node : Node} (h : node.isDirectory = false) : node.entries = [] := by
  cases node with
  | directory entries => cases h
  | _ => rfl

/-- Below something without entries there is nothing. -/
theorem at?_eq_none_below {top : Node} {location other : List Text}
    (hentries : ∀ node, top.at? location = some node → node.entries = [])
    (hbelow : location <+: other) (hne : other ≠ location) : top.at? other = none := by
  obtain ⟨rest, rfl⟩ := hbelow
  rw [at?_append]
  cases hat : top.at? location with
  | none => rfl
  | some node =>
    cases rest with
    | nil => exact absurd (List.append_nil location) hne
    | cons name rest =>
      rw [Option.bind_some, at?, hentries node hat]
      rfl

/-- Trees that agree off a location, and have no entries there, differ at the location alone. -/
theorem AgreeOff.look_eq {location other : List Text} {a b : Node} (h : AgreeOff location a b)
    (ha : ∀ node, a.at? location = some node → node.entries = [])
    (hb : ∀ node, b.at? location = some node → node.entries = []) (hne : other ≠ location) :
    a.look other = b.look other := by
  by_cases hbelow : location <+: other
  · rw [look_eq_none_iff.2 (at?_eq_none_below ha hbelow hne),
      look_eq_none_iff.2 (at?_eq_none_below hb hbelow hne)]
  · exact h other hbelow

theorem EndsAt.not_directory {top : Node} {location : List Text} (h : top.EndsAt location) :
    ∀ node, top.at? location = some node → node.isDirectory = false :=
  fun node hnode => isDirectory_of_isLeaf (h node hnode)

theorem EndsAt.entries_eq_nil {top : Node} {location : List Text} (h : top.EndsAt location) :
    ∀ node, top.at? location = some node → node.entries = [] :=
  fun node hnode => Node.entries_eq_nil (h.not_directory node hnode)

/-! ## Locations -/

mutual

/-- The locations at which something stands. -/
def locations : Node → List (List Text)
  | .directory entries => [] :: locationsIn entries
  | .file .. | .link _ | .special _ => [[]]

def locationsIn : List (Text × Node) → List (List Text)
  | [] => []
  | (name, node) :: entries => node.locations.map (name :: ·) ++ locationsIn entries

end

theorem mem_locationsIn {name : Text} {node : Node} {rest : List Text} {entries : List (Text × Node)}
    (hentry : (name, node) ∈ entries) (hrest : rest ∈ node.locations) : name :: rest ∈ locationsIn entries := by
  induction entries with
  | nil => cases hentry
  | cons entry entries ih =>
    rw [locationsIn, List.mem_append]
    rcases List.mem_cons.1 hentry with rfl | hentry
    · exact .inl (List.mem_map_of_mem hrest)
    · exact .inr (ih hentry)

theorem mem_locations {top : Node} {location : List Text} (h : top.at? location ≠ none) :
    location ∈ top.locations := by
  induction top using Node.induction generalizing location with
  | leaf node hnode =>
    cases location with
    | nil => cases node <;> simp [locations]
    | cons name names =>
      rw [at?, entries_eq_nil hnode] at h
      exact absurd rfl h
  | directory entries ih =>
    cases location with
    | nil => exact List.mem_cons_self
    | cons name names =>
      obtain ⟨found, hfound⟩ := Option.ne_none_iff_exists'.1 h
      obtain ⟨node, hget, hat⟩ := Option.bind_eq_some_iff.1 hfound
      have hentry := Assoc.mem_of_get? hget
      exact List.mem_cons_of_mem _ (mem_locationsIn hentry (ih _ hentry (by simp [hat])))

/-! ## Changed directories -/

theorem look_cons (name : Text) (names : List Text) (top : Node) :
    top.look (name :: names) = (Assoc.get? name top.entries).bind (look · names) := by
  rw [look, at?]
  cases Assoc.get? name top.entries with
  | none => rfl
  | some node => rfl

/-- A change below a directory changes one of its entries. -/
theorem entries_change (f : List (Text × Node) → List (Text × Node)) (name : Text) (names : List Text)
    (entries : List (Text × Node)) : (Node.change f (name :: names) (.directory entries)).entries =
      entries.map fun entry => (entry.1, if entry.1 = name then entry.2.change f names else entry.2) := by
  apply List.map_congr_left
  intro entry _
  dsimp only
  split <;> rfl

theorem keys_entries_change (f : List (Text × Node) → List (Text × Node)) (name : Text) (names : List Text)
    (top : Node) : Assoc.keys (top.change f (name :: names)).entries = Assoc.keys top.entries := by
  cases top with
  | directory entries =>
    rw [entries_change, Assoc.keys, List.map_map]
    rfl
  | _ => rfl

theorem get?_entries_change (f : List (Text × Node) → List (Text × Node)) (name other : Text)
    (names : List Text) (top : Node) :
    Assoc.get? other (top.change f (name :: names)).entries =
      (Assoc.get? other top.entries).map fun node =>
        if other = name then node.change f names else node := by
  cases top with
  | directory entries =>
    rw [entries_change]
    exact Assoc.get?_map other (fun n node => if n = name then node.change f names else node) entries
  | _ => rfl

theorem shallow_change (f : List (Text × Node) → List (Text × Node)) (directory : List Text) (top : Node) :
    (top.change f directory).shallow = top.shallow := by
  cases top with
  | directory entries =>
    cases directory with
    | nil => rfl
    | cons name names => rfl
  | _ => cases directory <;> rfl

theorem at?_change_self (f : List (Text × Node) → List (Text × Node)) (directory : List Text) (top : Node) :
    (top.change f directory).at? directory = (top.at? directory).map (change f []) := by
  induction directory generalizing top with
  | nil => rfl
  | cons name names ih =>
    rw [at?, at?, get?_entries_change]
    cases Assoc.get? name top.entries with
    | none => rfl
    | some node =>
      rw [Option.map_some, if_pos rfl, Option.bind_some, Option.bind_some]
      exact ih node

theorem look_change_of_not_below (f : List (Text × Node) → List (Text × Node))
    {directory other : List Text} (h : ¬ directory <+: other) (top : Node) :
    (top.change f directory).look other = top.look other := by
  induction directory generalizing top other with
  | nil => exact absurd List.nil_prefix h
  | cons name names ih =>
    cases other with
    | nil => exact congrArg some (shallow_change f (name :: names) top)
    | cons first rest =>
      rw [look_cons, look_cons, get?_entries_change]
      cases Assoc.get? first top.entries with
      | none => rfl
      | some node =>
        by_cases hfirst : first = name
        · rw [Option.map_some, if_pos hfirst, Option.bind_some, Option.bind_some]
          apply ih
          intro hbelow
          exact h (List.cons_prefix_cons.2 ⟨hfirst.symm, hbelow⟩)
        · rw [Option.map_some, if_neg hfirst]

/-- A change of one entry of a directory shows from the location of the entry on only. -/
theorem agreeOff_change {f : List (Text × Node) → List (Text × Node)} {name : Text}
    (hf : ∀ other entries, other ≠ name → Assoc.get? other (f entries) = Assoc.get? other entries)
    (directory : List Text) (top : Node) :
    AgreeOff (directory ++ [name]) (top.change f directory) top := by
  intro other hother
  by_cases hbelow : directory <+: other
  · obtain ⟨rest, rfl⟩ := hbelow
    rw [look, look, at?_append, at?_append, at?_change_self]
    cases top.at? directory with
    | none => rfl
    | some node =>
      rw [Option.map_some, Option.bind_some, Option.bind_some]
      cases rest with
      | nil => exact congrArg some (shallow_change f [] node)
      | cons first rest =>
        have hfirst : first ≠ name := by
          rintro rfl
          exact hother ⟨rest, by rw [List.append_assoc, List.singleton_append]⟩
        cases node with
        | directory entries =>
          rw [at?, at?]
          exact congrArg (fun found : Option Node => (found.bind (at? rest)).map shallow)
            (hf first entries hfirst)
        | _ => rfl
  · exact look_change_of_not_below f hbelow top

theorem agreeOff_put (directory : List Text) (name : Text) (node top : Node) :
    AgreeOff (directory ++ [name]) (top.change (Assoc.put name node) directory) top :=
  agreeOff_change (fun _ entries hother => Assoc.get?_put_of_ne hother node entries) directory top

theorem agreeOff_erase (directory : List Text) (name : Text) (top : Node) :
    AgreeOff (directory ++ [name]) (top.change (Assoc.erase name) directory) top :=
  agreeOff_change (fun _ entries hother => Assoc.get?_erase_of_ne hother entries) directory top

theorem at?_put {top : Node} {directory : List Text} {entries : List (Text × Node)}
    (h : top.at? directory = some (.directory entries)) (name : Text) (node : Node) :
    (top.change (Assoc.put name node) directory).at? (directory ++ [name]) = some node := by
  have hself : (top.change (Assoc.put name node) directory).at? directory =
      some (.directory (Assoc.put name node entries)) := by
    rw [at?_change_self, h]
    rfl
  rw [at?_child hself, Assoc.get?_put_self]

theorem at?_erase (directory : List Text) (name : Text) (top : Node) :
    (top.change (Assoc.erase name) directory).at? (directory ++ [name]) = none := by
  rw [at?_append, at?_change_self]
  cases top.at? directory with
  | none => rfl
  | some node =>
    rw [Option.map_some, Option.bind_some, at?_singleton]
    cases node with
    | directory entries => exact Assoc.get?_erase_self name entries
    | _ => rfl

end Node

end ModuleCatalog
