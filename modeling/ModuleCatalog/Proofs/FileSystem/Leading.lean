import ModuleCatalog.Proofs.FileSystem.Walk

/-!
# Locations of paths

A path leads to a location, where something stands or is free to be put. Changing what stands at one
location moves no path to another one, unless the path leads on through that location.
-/

namespace ModuleCatalog.FileSystem

open Node (AgreeOff)

/-! ## Names in a path -/

theorem eq_separator_of_splitOn {separator : CodePoint} {t : Text}
    (h : ∀ piece ∈ Text.splitOn separator t, piece = []) : ∀ c ∈ t, c = separator := by
  induction t with
  | nil =>
    intro c hc
    cases hc
  | cons c t ih =>
    by_cases hc : c = separator
    · rw [Text.splitOn, if_pos hc] at h
      intro other hother
      rcases List.mem_cons.1 hother with rfl | hother
      · exact hc
      · exact ih (fun piece hpiece => h piece (List.mem_cons_of_mem _ hpiece)) other hother
    · rw [Text.splitOn, if_neg hc] at h
      split at h
      · cases h _ List.mem_cons_self
      · cases h _ List.mem_cons_self

theorem endsWith_slash {path : Text} (hpath : path ≠ []) (h : ∀ c ∈ path, c = .scalar '/') :
    Text.endsWith path "/" := by
  have hreverse : path.reverse ≠ [] := by simpa using hpath
  obtain ⟨c, rest, heq⟩ := List.exists_cons_of_ne_nil hreverse
  have hc : c = .scalar '/' := h c (List.mem_reverse.1 (heq ▸ List.mem_cons_self))
  rw [Text.endsWith, heq, hc]
  rfl

theorem namesIn_ne_nil {path : Text} (hpath : path ≠ []) : namesIn path ≠ [] := by
  unfold namesIn
  by_cases hslash : Text.endsWith path "/"
  · simp [hslash]
  · intro hnames
    simp only [if_neg hslash, List.filter_eq_nil_iff, decide_eq_true_eq, Decidable.not_not] at hnames
    exact hslash (endsWith_slash hpath (eq_separator_of_splitOn hnames))

/-! ## Leading -/

theorem lookup_eq_ok_iff {fs : FileSystem} {goal : Goal} {path : Text} {p : Place} :
    fs.lookup goal path = .ok p ↔ Utf8.asRead path ≠ [] ∧ byteLength (Utf8.asRead path) < pathBytesLimit ∧
      Walk fs.top goal maxLinks (startOf fs.working (Utf8.asRead path)) (namesIn (Utf8.asRead path)) p := by
  unfold lookup
  dsimp only
  split
  · next hempty => simp [List.isEmpty_iff.1 hempty]
  · next hempty =>
    rw [List.isEmpty_iff] at hempty
    split
    · next hlong => simp [Nat.not_lt.2 hlong]
    · next hlong => simp [hempty, Nat.not_le.1 hlong, Walk.iff_follow_eq]

/-- Whether a path leads to a location. -/
def LeadsTo (fs : FileSystem) (goal : Goal) (path : Text) (location : List Text) : Prop :=
  ∃ p, fs.lookup goal path = .ok p ∧ p.location = location

namespace LeadsTo

variable {fs fs' : FileSystem} {goal : Goal} {path : Text} {location : List Text}

theorem lookup_eq_entry {node : Node} (h : fs.LeadsTo goal path location)
    (hat : fs.top.at? location = some node) : fs.lookup goal path = .ok (.entry location node) := by
  obtain ⟨p, hp, rfl⟩ := h
  have hstands := (lookup_eq_ok_iff.1 hp).2.2.stands
  cases p with
  | entry location found =>
    rw [hp, Option.some.inj (hat.symm.trans hstands)]
    rfl
  | free directory name => cases hat.symm.trans hstands.2

theorem target (h : fs.LeadsTo goal path location)
    (hlink : ∀ target, fs.top.at? location ≠ some (.link target)) :
    fs.LeadsTo .target path location := by
  obtain ⟨p, hp, rfl⟩ := h
  obtain ⟨hempty, hlong, hwalk⟩ := lookup_eq_ok_iff.1 hp
  have hentry : ∀ location target, p ≠ .entry location (.link target) := by
    rintro location target rfl
    exact hlink target hwalk.stands
  exact ⟨p, lookup_eq_ok_iff.2 ⟨hempty, hlong, hwalk.target_of_walk hentry⟩, rfl⟩

/-- Where links are followed, no path leads to one. -/
theorem not_link (h : fs.LeadsTo goal path location) (hgoal : goal ≠ .itself) (target : Text) :
    fs.top.at? location ≠ some (.link target) := by
  intro hlink
  obtain ⟨hempty, -, hwalk⟩ := lookup_eq_ok_iff.1 (h.lookup_eq_entry hlink)
  obtain ⟨entries, hstart⟩ := hwalk.exists_directory (namesIn_ne_nil hempty)
  exact hwalk.not_link hgoal (fun other hother => nomatch hstart.symm.trans hother) location target rfl

theorem location_eq {other : List Text} (h : fs.LeadsTo goal path location)
    (hother : fs.LeadsTo goal path other) : location = other := by
  obtain ⟨p, hp, rfl⟩ := h
  obtain ⟨q, hq, rfl⟩ := hother
  rw [Except.ok.inj (hp.symm.trans hq)]

end LeadsTo

/-! ## Changes at one location -/

theorem not_prefix_of_directory {top : Node} {location here : List Text} {entries : List (Text × Node)}
    (hlocation : ∀ node, top.at? location = some node → node.isDirectory = false)
    (hhere : top.at? here = some (.directory entries)) : ¬ location <+: here := by
  intro hbelow
  by_cases heq : here = location
  · cases hlocation _ (heq ▸ hhere)
  · have hentries := fun node hnode => Node.entries_eq_nil (hlocation node hnode)
    cases hhere.symm.trans (Node.at?_eq_none_below hentries hbelow heq)

theorem LeadsTo.location_ne_nil {fs : FileSystem} {goal : Goal} {path : Text} {location : List Text}
    (h : fs.LeadsTo goal path location)
    (hlocation : ∀ node, fs.top.at? location = some node → node.isDirectory = false) : location ≠ [] := by
  rintro rfl
  obtain ⟨p, hp, -⟩ := h
  obtain ⟨hempty, -, hwalk⟩ := lookup_eq_ok_iff.1 hp
  obtain ⟨entries, hstart⟩ := hwalk.exists_directory (namesIn_ne_nil hempty)
  exact not_prefix_of_directory hlocation hstart List.nil_prefix

/-- Where every directory and link is kept a path leads to the same location. If links have been replaced,
it may break off at one of them instead. -/
theorem LeadsTo.keeps {fs fs' : FileSystem} {replaced : List Text → Prop} {goal : Goal} {path : Text}
    {location : List Text} (hworking : fs'.working = fs.working) (hkeeps : Keeps replaced fs.top fs'.top)
    (hgoal : goal = .itself ∨ ∀ location, ¬ replaced location) (h : fs.LeadsTo goal path location) :
    fs'.LeadsTo goal path location ∨
      (∃ p, fs.lookup goal path = .ok p ∧ p.location = location ∧ BreaksOff replaced fs.top p) ∧
        ∀ goal', goal' ≠ .fileTarget → fs'.lookup goal' path = .error .notDirectory := by
  obtain ⟨p, hp, rfl⟩ := h
  obtain ⟨hempty, hlong, hwalk⟩ := lookup_eq_ok_iff.1 hp
  have hstart := hwalk.exists_directory (namesIn_ne_nil hempty)
  rcases hwalk.keeps hkeeps hgoal hstart with ⟨q, hwalk', hq⟩ | ⟨hbreaks, hstop⟩
  · rw [← hworking] at hwalk'
    exact .inl ⟨q, lookup_eq_ok_iff.2 ⟨hempty, hlong, hwalk'⟩, hq⟩
  · refine .inr ⟨⟨p, hp, rfl, hbreaks⟩, fun goal' hgoal' => ?_⟩
    have hnonempty : ¬ (Utf8.asRead path).isEmpty := by rwa [List.isEmpty_iff]
    rw [lookup]
    simp only [if_neg hnonempty, if_neg (Nat.not_le.2 hlong), hworking]
    exact hstop goal' hgoal'

/-- Where every directory and link is kept, and no link comes, every path leads to the same location. -/
theorem LeadsTo.of_keeps {fs fs' : FileSystem} {goal : Goal} {path : Text} {location : List Text}
    (hworking : fs'.working = fs.working) (hkeeps : Keeps (fun _ => False) fs.top fs'.top)
    (h : fs.LeadsTo goal path location) : fs'.LeadsTo goal path location := by
  rcases h.keeps hworking hkeeps (.inr fun _ hreplaced => hreplaced) with hleads | ⟨⟨p, -, -, hbreaks⟩, -⟩
  · exact hleads
  · obtain ⟨_, _, _, _, _, _, hreplaced, -⟩ := hbreaks
    exact hreplaced.elim

theorem not_prefix_child {location here : List Text} {name : Text} (hhere : ¬ location <+: here)
    (hne : here ++ [name] ≠ location) : ¬ location <+: here ++ [name] := by
  rw [List.prefix_concat_iff, not_or]
  exact ⟨Ne.symm hne, hhere⟩

/-- Trees that agree off a location keep their directories and links, but for a link at the location. -/
theorem Keeps.of_agreeOff {a b : Node} {location : List Text} (hoff : AgreeOff location a b)
    (hfile : ∀ node, a.at? location = some node → node.isDirectory = false)
    (hlink : ∀ target, b.at? location ≠ some (.link target))
    (hends : a.EndsAt location ∨ ∃ leaf : Node, b.at? location = some leaf ∧ leaf.isLeaf) :
    Keeps (fun here => here = location ∧ ¬ a.EndsAt location) a b where
  directory hhere := hoff.at?_eq_directory (not_prefix_of_directory hfile hhere) hhere
  link := by
    intro here target hhere
    by_cases hbelow : location <+: here
    · obtain rfl : here = location := by
        by_contra hne
        have hentries := fun node hnode => Node.entries_eq_nil (hfile node hnode)
        cases hhere.symm.trans (Node.at?_eq_none_below hentries hbelow hne)
      have hnot : ¬ a.EndsAt here := fun hend => nomatch hend _ hhere
      exact .inr ⟨⟨rfl, hnot⟩, hends.resolve_left hnot⟩
    · exact .inl (hoff.at?_eq_some hbelow rfl hhere)
  not_link := by
    intro here entries name hhere hchild target htarget
    by_cases hc : here ++ [name] = location
    · exact hlink target (hc ▸ htarget)
    · have hbeside := not_prefix_child (not_prefix_of_directory hfile hhere) hc
      exact hchild target (hoff.symm.at?_eq_some hbeside rfl htarget)

/-- A path that leads somewhere leads there in a tree that agrees off one location, or else breaks off at
that location. -/
theorem LeadsTo.transfer_or_stop {fs fs' : FileSystem} {goal : Goal} {path : Text}
    {location other : List Text} (hworking : fs'.working = fs.working)
    (hoff : AgreeOff location fs.top fs'.top)
    (hfile : ∀ node, fs.top.at? location = some node → node.isDirectory = false)
    (hlink : ∀ target, fs'.top.at? location ≠ some (.link target))
    (hends : fs.top.EndsAt location ∨
      goal = .itself ∧ ∃ leaf : Node, fs'.top.at? location = some leaf ∧ leaf.isLeaf)
    (h : fs.LeadsTo goal path other) :
    fs'.LeadsTo goal path other ∨ (¬ fs.top.EndsAt location ∧ ∀ goal', goal' ≠ .fileTarget →
      fs'.lookup goal' path = .error .notDirectory) := by
  have hkeeps := Keeps.of_agreeOff hoff hfile hlink (hends.imp_right And.right)
  have hgoal : goal = .itself ∨ ∀ here, ¬ (here = location ∧ ¬ fs.top.EndsAt location) :=
    hends.symm.imp And.left fun hend _ hreplaced => hreplaced.2 hend
  rcases h.keeps hworking hkeeps hgoal with hleads | ⟨⟨p, -, -, hbreaks⟩, hstop⟩
  · exact .inl hleads
  · obtain ⟨_, _, _, _, _, _, hreplaced, -⟩ := hbreaks
    exact .inr ⟨hreplaced.2, hstop⟩

/-- Where no path leads on through a location, what is put there moves no path. -/
theorem LeadsTo.transfer {fs fs' : FileSystem} {goal : Goal} {path : Text} {location other : List Text}
    (hworking : fs'.working = fs.working) (hoff : AgreeOff location fs.top fs'.top)
    (hends : fs.top.EndsAt location) (hlink : ∀ target, fs'.top.at? location ≠ some (.link target))
    (h : fs.LeadsTo goal path other) : fs'.LeadsTo goal path other := by
  rcases h.transfer_or_stop hworking hoff hends.not_directory hlink (.inl hends) with hleads | ⟨hnot, -⟩
  · exact hleads
  · exact absurd hends hnot

end ModuleCatalog.FileSystem
