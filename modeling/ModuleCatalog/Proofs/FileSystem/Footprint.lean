import ModuleCatalog.FileSystem.Change
import ModuleCatalog.Proofs.FileSystem.Parents

/-!
# What a path depends on

Following a path looks at some locations of the tree and at no others. Two trees that look the same there give
the same answer to every question about the path, be it a place, a content or an error.
-/

namespace ModuleCatalog.FileSystem

/-! ## Locations on the way -/

/-- The locations at which following names looks. -/
def footprintFrom (top : Node) (goal : Goal) : Nat → List Text → List Text → List (List Text)
  | _, here, [] => [here]
  | links, here, name :: names =>
    match top.at? here with
    | some (.directory entries) =>
      if name = [] ∨ name = "." then here :: footprintFrom top goal links here names
      else if name = ".." then here :: footprintFrom top goal links here.dropLast names
      else
        match Assoc.get? name entries with
        | none => [here, here ++ [name]]
        | some (.link target) =>
          if names.isEmpty && goal = .itself then [here, here ++ [name]]
          else
            match links with
            | 0 => [here, here ++ [name]]
            | links + 1 =>
              here :: (here ++ [name]) ::
                footprintFrom top goal links (startOf here target) (namesIn target ++ names)
        | some _ => here :: (here ++ [name]) :: footprintFrom top goal links (here ++ [name]) names
    | _ => [here]
termination_by links _ names => (links, names.length)

/-- The locations at which following a path looks. -/
def footprint (fs : FileSystem) (goal : Goal) (path : Text) : List (List Text) :=
  let path := Utf8.asRead path
  footprintFrom fs.top goal maxLinks (startOf fs.working path) (namesIn path)

/-- A place without the entries of a directory there. -/
def Place.shallow : Place → Place
  | .entry location node => .entry location node.shallow
  | .free directory name => .free directory name

/-! ## Trees that look the same -/

section Look

variable {a b : Node} {here : List Text}

theorem at?_eq_directory_of_look (h : a.look here = b.look here) {entries : List (Text × Node)}
    (ha : a.at? here = some (.directory entries)) : ∃ entries, b.at? here = some (.directory entries) := by
  rw [← Node.look_eq_directory_iff, ← h, Node.look_eq_directory_iff]
  exact ⟨entries, ha⟩

theorem at?_eq_none_of_look (h : a.look here = b.look here) (ha : a.at? here = none) : b.at? here = none := by
  rw [← Node.look_eq_none_iff] at ha ⊢
  rw [← h, ha]

theorem at?_eq_some_of_look (h : a.look here = b.look here) {node : Node} (hnode : node.isDirectory = false)
    (ha : a.at? here = some node) : b.at? here = some node := by
  rw [← Node.look_eq_some_iff hnode] at ha ⊢
  rw [← h, ha]

theorem exists_at?_of_look (h : a.look here = b.look here) {node : Node} (ha : a.at? here = some node) :
    ∃ other, b.at? here = some other ∧ other.shallow = node.shallow := by
  rw [Node.look, ha] at h
  exact Option.map_eq_some_iff.1 h.symm

theorem exists_not_link_of_look (h : a.look here = b.look here) {node : Node} (ha : a.at? here = some node)
    (hnode : ∀ target, node ≠ .link target) :
    ∃ other, b.at? here = some other ∧ ∀ target, other ≠ .link target := by
  obtain ⟨other, hother, hsame⟩ := exists_at?_of_look h ha
  rcases Node.eq_or_directories_of_shallow hsame with rfl | ⟨_, _, rfl, -⟩
  · exact ⟨other, hother, hnode⟩
  · exact ⟨_, hother, nofun⟩

end Look

/-- A name that cannot be looked up is refused whatever the tree is. -/
theorem follow_eq_of_not_isName {a b : Node} {goal : Goal} {links : Nat} {here : List Text} {name : Text}
    {names : List Text} {entries entries' : List (Text × Node)} (ha : a.at? here = some (.directory entries))
    (hb : b.at? here = some (.directory entries')) (hskip : ¬ (name = [] ∨ name = "."))
    (hback : name ≠ "..") (hname : ¬ IsName goal name names) :
    follow a goal links here (name :: names) = follow b goal links here (name :: names) := by
  rw [follow, follow, ha, hb]
  simp only [if_neg hskip, if_neg hback]
  by_cases hslash : goal = .fileTarget && isSlashedName name names
  · rw [if_pos hslash, if_pos hslash]
  · rw [if_neg hslash, if_neg hslash]
    by_cases hlong : byteLength name > maxNameBytes
    · rw [if_pos hlong, if_pos hlong]
    · exact absurd ⟨hskip, hback, hslash, hlong⟩ hname

/-- A name leads alike in trees with a directory there if it does when it is looked up. -/
theorem follow_name_congr {a b : Node} {goal : Goal} {links : Nat} {here : List Text} {name : Text}
    {names : List Text} {entries entries' : List (Text × Node)} (ha : a.at? here = some (.directory entries))
    (hb : b.at? here = some (.directory entries')) (hskip : ¬ (name = [] ∨ name = "."))
    (hback : name ≠ "..")
    (h : IsName goal name names → (follow a goal links here (name :: names)).map Place.shallow =
      (follow b goal links here (name :: names)).map Place.shallow) :
    (follow a goal links here (name :: names)).map Place.shallow =
      (follow b goal links here (name :: names)).map Place.shallow := by
  by_cases hname : IsName goal name names
  · exact h hname
  · rw [follow_eq_of_not_isName ha hb hskip hback hname]

/-- Names lead alike in trees that look the same on the way. -/
theorem follow_congr {a b : Node} {goal : Goal} {links : Nat} {here names : List Text}
    (h : ∀ location ∈ footprintFrom a goal links here names, a.look location = b.look location) :
    (follow a goal links here names).map Place.shallow =
      (follow b goal links here names).map Place.shallow := by
  fun_induction footprintFrom a goal links here names with
  | case1 links here =>
    have hhere := h here List.mem_cons_self
    rw [follow, follow]
    cases hat : a.at? here with
    | none => rw [at?_eq_none_of_look hhere hat]
    | some node =>
      obtain ⟨other, hother, hsame⟩ := exists_at?_of_look hhere hat
      rw [hother]
      exact congrArg (fun node => Except.ok (Place.entry here node)) hsame.symm
  | case2 links here name names entries hat hname ih =>
    obtain ⟨entries', hb⟩ := at?_eq_directory_of_look (h here List.mem_cons_self) hat
    rw [follow_skip hat hname, follow_skip hb hname]
    exact ih fun location hlocation => h location (List.mem_cons_of_mem _ hlocation)
  | case3 links here names entries hat hskip ih =>
    obtain ⟨entries', hb⟩ := at?_eq_directory_of_look (h here List.mem_cons_self) hat
    rw [follow_back hat, follow_back hb]
    exact ih fun location hlocation => h location (List.mem_cons_of_mem _ hlocation)
  | case4 links here name names entries hat hskip hback hnone =>
    obtain ⟨entries', hb⟩ := at?_eq_directory_of_look (h here List.mem_cons_self) hat
    rw [← Node.at?_child hat] at hnone
    apply follow_name_congr hat hb hskip hback
    intro hname
    rw [follow_name hat hname, follow_name hb hname, hnone, at?_eq_none_of_look (h _ (by simp)) hnone]
  | case5 links here name names entries hat hskip hback target hlink hend =>
    obtain ⟨entries', hb⟩ := at?_eq_directory_of_look (h here List.mem_cons_self) hat
    rw [← Node.at?_child hat] at hlink
    apply follow_name_congr hat hb hskip hback
    intro hname
    rw [follow_name hat hname, follow_name hb hname, hlink, at?_eq_some_of_look (h _ (by simp)) rfl hlink]
    simp only [hend, if_true]
  | case6 here name names entries hat hskip hback target hlink hend =>
    obtain ⟨entries', hb⟩ := at?_eq_directory_of_look (h here List.mem_cons_self) hat
    rw [← Node.at?_child hat] at hlink
    apply follow_name_congr hat hb hskip hback
    intro hname
    rw [follow_name hat hname, follow_name hb hname, hlink, at?_eq_some_of_look (h _ (by simp)) rfl hlink]
  | case7 here name names entries hat hskip hback target hlink hend links ih =>
    obtain ⟨entries', hb⟩ := at?_eq_directory_of_look (h here List.mem_cons_self) hat
    rw [← Node.at?_child hat] at hlink
    have hlink' := at?_eq_some_of_look (h _ (by simp)) rfl hlink
    have hmore : ¬ (names = [] ∧ goal = .itself) := by simpa using hend
    apply follow_name_congr hat hb hskip hback
    intro hname
    rw [follow_link hat hname hlink hmore, follow_link hb hname hlink' hmore]
    exact ih fun location hlocation => h location (by simp [hlocation])
  | case8 links here name names entries hat hskip hback node hnode hget ih =>
    obtain ⟨entries', hb⟩ := at?_eq_directory_of_look (h here List.mem_cons_self) hat
    rw [← Node.at?_child hat] at hget
    obtain ⟨other, hother, hnode'⟩ := exists_not_link_of_look (h _ (by simp)) hget hnode
    apply follow_name_congr hat hb hskip hback
    intro hname
    rw [follow_down hat hname hget hnode, follow_down hb hname hother hnode']
    exact ih fun location hlocation => h location (by simp [hlocation])
  | case9 links here name names hnot =>
    have hhere := h here List.mem_cons_self
    cases hat : a.at? here with
    | none =>
      have hb := at?_eq_none_of_look hhere hat
      rw [follow, follow, hat, hb]
    | some node =>
      have hnode : node.isDirectory = false := by
        cases node with
        | directory entries => exact absurd hat (hnot entries)
        | _ => rfl
      have hb := at?_eq_some_of_look hhere hnode hat
      rw [follow_of_not_directory hat hnode (by simp), follow_of_not_directory hb hnode (by simp)]

/-! ## Questions about a path -/

section Questions

variable {fs fs' : FileSystem} {goal : Goal} {path : Text}

theorem lookup_congr (hworking : fs'.working = fs.working)
    (h : ∀ location ∈ fs.footprint goal path, fs.top.look location = fs'.top.look location) :
    (fs.lookup goal path).map Place.shallow = (fs'.lookup goal path).map Place.shallow := by
  unfold lookup
  dsimp only
  split
  · rfl
  · split
    · rfl
    · rw [hworking]
      exact follow_congr h

/-- A directory is found at the same place. -/
theorem lookup_directory_of_shallow
    (hsame : (fs.lookup goal path).map Place.shallow = (fs'.lookup goal path).map Place.shallow)
    {here : List Text} {entries : List (Text × Node)}
    (h : fs.lookup goal path = .ok (.entry here (.directory entries))) :
    ∃ entries, fs'.lookup goal path = .ok (.entry here (.directory entries)) := by
  rw [h] at hsame
  obtain ⟨p, hp, hplace⟩ := map_eq_ok_iff.1 hsame.symm
  cases p with
  | free directory name => cases hplace
  | entry other node =>
    cases node with
    | directory entries => exact ⟨entries, by rw [hp, (Place.entry.inj hplace).1]⟩
    | _ => cases hplace

theorem locate_congr (hworking : fs'.working = fs.working)
    (h : ∀ location ∈ fs.footprint goal path, fs.top.look location = fs'.top.look location) :
    (fs.locate goal path).map Place.shallow = (fs'.locate goal path).map Place.shallow := by
  have hlocate : ∀ fs : FileSystem, (fs.locate goal path).map Place.shallow =
      (checkText path).bind fun _ =>
        ((fs.lookup goal path).map Place.shallow).mapError fun fault => .fault fault [path] := by
    intro fs
    unfold locate
    cases checkText path with
    | error cause => rfl
    | ok => cases fs.lookup goal path <;> rfl
  rw [hlocate, hlocate, lookup_congr hworking h]

/-- The same is found at a path, or a directory at the same location. -/
theorem locate_eq_or_directories (hworking : fs'.working = fs.working)
    (h : ∀ location ∈ fs.footprint goal path, fs.top.look location = fs'.top.look location) :
    fs.locate goal path = fs'.locate goal path ∨ ∃ here entries entries',
      fs.locate goal path = .ok (.entry here (.directory entries)) ∧
        fs'.locate goal path = .ok (.entry here (.directory entries')) := by
  have hsame := locate_congr hworking h
  cases hlocate : fs.locate goal path with
  | error cause =>
    rw [hlocate] at hsame
    exact .inl (map_eq_error_iff.1 hsame.symm).symm
  | ok p =>
    rw [hlocate] at hsame
    obtain ⟨p', hlocate', hshallow⟩ := map_eq_ok_iff.1 hsame.symm
    rw [hlocate']
    cases p with
    | free directory name =>
      cases p' with
      | free directory' name' => exact .inl (congrArg Except.ok hshallow.symm)
      | entry location' node' => cases hshallow
    | entry location node =>
      cases p' with
      | free directory' name' => cases hshallow
      | entry location' node' =>
        obtain ⟨rfl, hnode⟩ := Place.entry.inj hshallow
        rcases Node.eq_or_directories_of_shallow hnode with rfl | ⟨entries', entries, rfl, rfl⟩
        · exact .inl rfl
        · exact .inr ⟨location', entries, entries', rfl, rfl⟩

/-- A file is read alike. -/
theorem read_congr {path : Path} (hworking : fs'.working = fs.working)
    (h : ∀ location ∈ fs.footprint .target path.toText, fs.top.look location = fs'.top.look location) :
    fs.read path = fs'.read path := by
  rcases locate_eq_or_directories hworking h with hsame | ⟨here, entries, entries', hlocate, hlocate'⟩
  · simp only [read, hsame]
  · simp only [read, hlocate, hlocate']
    rfl

end Questions

end ModuleCatalog.FileSystem
