import Mathlib.Data.List.Induction
import ModuleCatalog.FileSystem.Lookup
import ModuleCatalog.Proofs.FileSystem.Tree

/-!
# Walks

A successful walk takes one name or one link at a time. It leads to the same location in a tree that keeps
the directories and links, and breaks off where one of them that it goes on through has been replaced.
-/

namespace ModuleCatalog.FileSystem

open Node (AgreeOff)

/-- Where a path leads to, whether something stands there or not. -/
def Place.location : Place → List Text
  | .entry location _ => location
  | .free directory name => directory ++ [name]

/-! ## Places in directories -/

theorem exists_directory_of_child {top node : Node} {directory : List Text} {name : Text}
    (h : top.at? (directory ++ [name]) = some node) :
    ∃ entries, top.at? directory = some (.directory entries) := by
  rw [Node.at?_append] at h
  cases hat : top.at? directory with
  | none =>
    rw [hat] at h
    cases h
  | some found =>
    rw [hat, Option.bind_some, Node.at?_singleton] at h
    cases found with
    | directory entries => exact ⟨entries, rfl⟩
    | _ => cases h

/-- What stands at every location above a directory is a directory. -/
theorem exists_directory_above {top : Node} {above here : List Text} {entries : List (Text × Node)}
    (h : above <+: here) (hhere : top.at? here = some (.directory entries)) :
    ∃ entries, top.at? above = some (.directory entries) := by
  obtain ⟨rest, rfl⟩ := h
  induction rest using List.reverseRecOn generalizing entries with
  | nil => exact ⟨entries, by rwa [List.append_nil] at hhere⟩
  | append_singleton rest name ih =>
    rw [← List.append_assoc] at hhere
    obtain ⟨entries, habove⟩ := exists_directory_of_child hhere
    exact ih habove

/-! ## Steps -/

/-- A name that is looked up in a directory: neither empty nor dots, and not too long. -/
structure IsName (goal : Goal) (name : Text) (names : List Text) : Prop where
  not_skipped : ¬ (name = [] ∨ name = ".")
  not_back : name ≠ ".."
  not_slashed : ¬ (goal = .fileTarget && isSlashedName name names)
  not_long : ¬ byteLength name > maxNameBytes

theorem IsName.of_goal {goal goal' : Goal} {name : Text} {names names' : List Text}
    (h : IsName goal name names) (hgoal : goal' ≠ .fileTarget) : IsName goal' name names' :=
  ⟨h.not_skipped, h.not_back, by simp [hgoal], h.not_long⟩

section Steps

variable {top : Node} {goal : Goal} {links : Nat} {here : List Text} {name : Text} {names : List Text}
  {entries : List (Text × Node)}

theorem follow_nil {node : Node} (h : top.at? here = some node) :
    follow top goal links here [] = .ok (.entry here node) := by
  rw [follow, h]

theorem follow_skip (h : top.at? here = some (.directory entries)) (hname : name = [] ∨ name = ".") :
    follow top goal links here (name :: names) = follow top goal links here names := by
  rw [follow, h]
  simp only [if_pos hname]

theorem follow_back (h : top.at? here = some (.directory entries)) :
    follow top goal links here (".." :: names) = follow top goal links here.dropLast names := by
  rw [follow, h]
  simp only [if_true]
  exact if_neg (by decide)

theorem follow_name (h : top.at? here = some (.directory entries)) (hname : IsName goal name names) :
    follow top goal links here (name :: names) =
      match top.at? (here ++ [name]) with
      | none => if names.isEmpty then .ok (.free here name) else .error .notFound
      | some (.link target) =>
        if names.isEmpty && goal = .itself then .ok (.entry (here ++ [name]) (.link target))
        else
          match links with
          | 0 => .error .tooManyLinks
          | links + 1 => follow top goal links (startOf here target) (namesIn target ++ names)
      | some _ => follow top goal links (here ++ [name]) names := by
  rw [Node.at?_child h, follow, h]
  cases hget : Assoc.get? name entries with
  | none =>
    simp only [hget, if_neg hname.not_skipped, if_neg hname.not_back, if_neg hname.not_slashed,
      if_neg hname.not_long]
  | some node =>
    cases links <;> cases node <;> simp only [hget, if_neg hname.not_skipped, if_neg hname.not_back,
      if_neg hname.not_slashed, if_neg hname.not_long]

theorem follow_link {target : Text} (h : top.at? here = some (.directory entries))
    (hname : IsName goal name names) (hchild : top.at? (here ++ [name]) = some (.link target))
    (hgoal : ¬ (names = [] ∧ goal = .itself)) :
    follow top goal (links + 1) here (name :: names) =
      follow top goal links (startOf here target) (namesIn target ++ names) := by
  rw [follow_name h hname, hchild]
  exact if_neg (by simpa using hgoal)

theorem follow_down {node : Node} (h : top.at? here = some (.directory entries))
    (hname : IsName goal name names) (hchild : top.at? (here ++ [name]) = some node)
    (hnode : ∀ target, node ≠ .link target) :
    follow top goal links here (name :: names) = follow top goal links (here ++ [name]) names := by
  rw [follow_name h hname, hchild]
  cases node with
  | link target => exact absurd rfl (hnode target)
  | _ => rfl

end Steps

theorem follow_of_not_directory {top node : Node} {goal : Goal} {links : Nat} {here : List Text}
    {names : List Text} (h : top.at? here = some node) (hnode : node.isDirectory = false)
    (hnames : names ≠ []) : follow top goal links here names = .error .notDirectory := by
  obtain ⟨name, names, rfl⟩ := List.exists_cons_of_ne_nil hnames
  rw [follow, h]
  cases node with
  | directory entries => cases hnode
  | _ => rfl

/-! ## Walks -/

/-- The walks to a place, with some links left to follow. -/
inductive Walk (top : Node) (goal : Goal) : Nat → List Text → List Text → Place → Prop
  | done {links here node} (h : top.at? here = some node) : Walk top goal links here [] (.entry here node)
  | skip {links here name names p entries} (h : top.at? here = some (.directory entries))
      (hname : name = [] ∨ name = ".") (hwalk : Walk top goal links here names p) :
      Walk top goal links here (name :: names) p
  | back {links here names p entries} (h : top.at? here = some (.directory entries))
      (hwalk : Walk top goal links here.dropLast names p) :
      Walk top goal links here (".." :: names) p
  | free {links here name entries} (h : top.at? here = some (.directory entries))
      (hname : IsName goal name []) (hchild : top.at? (here ++ [name]) = none) :
      Walk top goal links here [name] (.free here name)
  | stay {links here name target entries} (h : top.at? here = some (.directory entries))
      (hname : IsName goal name []) (hchild : top.at? (here ++ [name]) = some (.link target))
      (hgoal : goal = .itself) :
      Walk top goal links here [name] (.entry (here ++ [name]) (.link target))
  | link {links here name names target p entries} (h : top.at? here = some (.directory entries))
      (hname : IsName goal name names) (hchild : top.at? (here ++ [name]) = some (.link target))
      (hgoal : ¬ (names = [] ∧ goal = .itself))
      (hwalk : Walk top goal links (startOf here target) (namesIn target ++ names) p) :
      Walk top goal (links + 1) here (name :: names) p
  | down {links here name names node p entries} (h : top.at? here = some (.directory entries))
      (hname : IsName goal name names) (hchild : top.at? (here ++ [name]) = some node)
      (hnode : ∀ target, node ≠ .link target) (hwalk : Walk top goal links (here ++ [name]) names p) :
      Walk top goal links here (name :: names) p

/-- Whether a place is as the tree has it. -/
def Place.Stands (top : Node) : Place → Prop
  | .entry location node => top.at? location = some node
  | .free directory name =>
    (∃ entries, top.at? directory = some (.directory entries)) ∧ top.at? (directory ++ [name]) = none

namespace Walk

variable {top : Node} {goal : Goal} {links : Nat} {here names : List Text} {p : Place}

theorem follow_eq (h : Walk top goal links here names p) : follow top goal links here names = .ok p := by
  induction h with
  | done h => exact follow_nil h
  | skip h hname _ ih => rw [follow_skip h hname, ih]
  | back h _ ih => rw [follow_back h, ih]
  | free h hname hchild =>
    rw [follow_name h hname, hchild]
    rfl
  | stay h hname hchild hgoal =>
    rw [follow_name h hname, hchild]
    simp [hgoal]
  | link h hname hchild hgoal _ ih => rw [follow_link h hname hchild hgoal, ih]
  | down h hname hchild hnode _ ih => rw [follow_down h hname hchild hnode, ih]

theorem of_follow_eq (h : follow top goal links here names = .ok p) :
    Walk top goal links here names p := by
  fun_induction follow top goal links here names with
  | case1 links here node hat => cases h; exact .done hat
  | case3 links here name names entries hat hname ih => exact .skip hat hname (ih h)
  | case4 links here names entries hat _ ih => exact .back hat (ih h)
  | case7 links here name names entries hat hskip hback hslash hlong hchild hnames =>
    obtain rfl := List.isEmpty_iff.1 hnames
    cases h
    exact .free hat ⟨hskip, hback, hslash, hlong⟩ (Node.at?_child hat name ▸ hchild)
  | case9 links here name names entries hat hskip hback hslash hlong target hchild hend =>
    rw [Bool.and_eq_true, List.isEmpty_iff, decide_eq_true_eq] at hend
    obtain ⟨rfl, hgoal⟩ := hend
    cases h
    exact .stay hat ⟨hskip, hback, hslash, hlong⟩ (Node.at?_child hat name ▸ hchild) hgoal
  | case11 here name names entries hat hskip hback hslash hlong target hchild hend links ih =>
    refine .link hat ⟨hskip, hback, hslash, hlong⟩ (Node.at?_child hat name ▸ hchild) ?_ (ih h)
    simpa using hend
  | case12 links here name names entries hat hskip hback hslash hlong node hnode hchild ih =>
    exact .down hat ⟨hskip, hback, hslash, hlong⟩ (Node.at?_child hat name ▸ hchild) hnode (ih h)
  | _ => cases h

theorem iff_follow_eq : Walk top goal links here names p ↔ follow top goal links here names = .ok p :=
  ⟨follow_eq, of_follow_eq⟩

theorem stands (h : Walk top goal links here names p) : p.Stands top := by
  induction h with
  | done h => exact h
  | skip _ _ _ ih => exact ih
  | back _ _ ih => exact ih
  | free h _ hchild => exact ⟨⟨_, h⟩, hchild⟩
  | stay _ _ hchild _ => exact hchild
  | link _ _ _ _ _ ih => exact ih
  | down _ _ _ _ _ ih => exact ih

/-- A walk that ends at no link would have ended there with links followed, too. -/
theorem target_of_walk (h : Walk top goal links here names p)
    (hp : ∀ location target, p ≠ .entry location (.link target)) :
    Walk top .target links here names p := by
  induction h with
  | done h => exact .done h
  | skip h hname _ ih => exact .skip h hname (ih hp)
  | back h _ ih => exact .back h (ih hp)
  | free h hname hchild => exact .free h (hname.of_goal (by decide)) hchild
  | stay _ _ _ _ => exact absurd rfl (hp _ _)
  | link h hname hchild _ _ ih =>
    refine .link h (hname.of_goal (by decide)) hchild ?_ (ih hp)
    intro hend
    cases hend.2
  | down h hname hchild hnode _ ih =>
    exact .down h (hname.of_goal (by decide)) hchild hnode (ih hp)

theorem location_nil (h : Walk top goal links here [] p) : p.location = here := by
  cases h
  rfl

theorem exists_directory (h : Walk top goal links here names p) (hnames : names ≠ []) :
    ∃ entries, top.at? here = some (.directory entries) := by
  cases h with
  | done => exact absurd rfl hnames
  | skip h | back h | free h | stay h | link h | down h => exact ⟨_, h⟩

/-- The last name of a walk, where there is no link. -/
theorem exists_walk_last (links : Nat) {name : Text} {entries : List (Text × Node)}
    (h : top.at? here = some (.directory entries)) (hname : IsName goal name [])
    (hlink : ∀ target, top.at? (here ++ [name]) ≠ some (.link target)) :
    ∃ q, Walk top goal links here [name] q ∧ q.location = here ++ [name] := by
  cases hchild : top.at? (here ++ [name]) with
  | none => exact ⟨_, .free h hname hchild, rfl⟩
  | some node =>
    have hnode : ∀ target, node ≠ .link target := by
      rintro target rfl
      exact hlink target hchild
    exact ⟨_, .down h hname hchild hnode (.done hchild), rfl⟩

end Walk

/-! ## Other trees -/

/-- Whether a tree has every directory of another one and every link, but for links at some places that
something no path leads on through has replaced. No name in a directory has become a link. -/
structure Keeps (replaced : List Text → Prop) (a b : Node) : Prop where
  directory : ∀ {here entries}, a.at? here = some (.directory entries) →
    ∃ entries, b.at? here = some (.directory entries)
  link : ∀ {here target}, a.at? here = some (.link target) → b.at? here = some (.link target) ∨
    (replaced here ∧ ∃ leaf : Node, b.at? here = some leaf ∧ leaf.isLeaf)
  not_link : ∀ {here entries name}, a.at? here = some (.directory entries) →
    (∀ target, a.at? (here ++ [name]) ≠ some (.link target)) →
      ∀ target, b.at? (here ++ [name]) ≠ some (.link target)

/-- Whether a walk to a place goes on through a link that has been replaced. -/
def BreaksOff (replaced : List Text → Prop) (top : Node) (p : Place) : Prop :=
  ∃ links here name names target, names ≠ [] ∧ replaced (here ++ [name]) ∧
    top.at? (here ++ [name]) = some (.link target) ∧
    Walk top .itself links (startOf here target) (namesIn target ++ names) p

/-- Whether a walk leads to a location, or else breaks off at something that is no directory, which it may
only where something is given. -/
def LeadsOrStops (top : Node) (stops : Prop) (goal : Goal) (links : Nat) (here names location : List Text) :
    Prop :=
  (∃ q, Walk top goal links here names q ∧ q.location = location) ∨
    (stops ∧ ∀ goal', goal' ≠ .fileTarget → follow top goal' links here names = .error .notDirectory)

namespace LeadsOrStops

variable {top : Node} {stops : Prop} {goal : Goal} {links links' : Nat}
  {here here' names names' location : List Text}

/-- One step more at the front of a walk. -/
theorem step (h : LeadsOrStops top stops goal links here names location)
    (hwalk : ∀ q, Walk top goal links here names q → Walk top goal links' here' names' q)
    (hfollow : stops → ∀ goal', goal' ≠ .fileTarget →
      follow top goal' links' here' names' = follow top goal' links here names) :
    LeadsOrStops top stops goal links' here' names' location := by
  rcases h with ⟨q, hq, hlocation⟩ | ⟨hstops, hstop⟩
  · exact .inl ⟨q, hwalk q hq, hlocation⟩
  · refine .inr ⟨hstops, ?_⟩
    intro goal' hgoal
    rw [hfollow hstops goal' hgoal, hstop goal' hgoal]

theorem of_leaf {name : Text} {entries : List (Text × Node)} {leaf : Node} (hstops : stops)
    (h : top.at? here = some (.directory entries)) (hname : IsName goal name names)
    (hchild : top.at? (here ++ [name]) = some leaf) (hleaf : leaf.isLeaf) (hnames : names ≠ []) :
    LeadsOrStops top stops goal links here (name :: names) location := by
  have hnode : ∀ target, leaf ≠ .link target := by
    rintro target rfl
    cases hleaf
  refine .inr ⟨hstops, ?_⟩
  intro goal' hgoal
  rw [follow_down h (hname.of_goal hgoal) hchild hnode]
  exact follow_of_not_directory hchild (Node.isDirectory_of_isLeaf hleaf) hnames

end LeadsOrStops

theorem exists_directory_startOf {top : Node} {here : List Text} {entries : List (Text × Node)}
    (h : top.at? here = some (.directory entries)) (target : Text) :
    ∃ entries, top.at? (startOf here target) = some (.directory entries) := by
  unfold startOf
  split
  · exact exists_directory_above List.nil_prefix h
  · exact ⟨entries, h⟩

/-- Where links are followed, a walk from a directory does not end at one. -/
theorem Walk.not_link {top : Node} {goal : Goal} {links : Nat} {here names : List Text} {p : Place}
    (h : Walk top goal links here names p) (hgoal : goal ≠ .itself)
    (hhere : ∀ target, top.at? here ≠ some (.link target)) (location : List Text) (target : Text) :
    p ≠ .entry location (.link target) := by
  have hdirectory : ∀ {here entries}, top.at? here = some (.directory entries) →
      ∀ target, top.at? here ≠ some (.link target) :=
    fun hat target hlink => nomatch hat.symm.trans hlink
  induction h with
  | done h =>
    rintro ⟨rfl, rfl⟩
    exact hhere target h
  | skip _ _ _ ih => exact ih hhere
  | back h _ ih =>
    obtain ⟨_, habove⟩ := exists_directory_above (List.dropLast_prefix _) h
    exact ih (hdirectory habove)
  | free => exact nofun
  | stay _ _ _ hitself => exact absurd hitself hgoal
  | link h _ _ _ _ ih =>
    obtain ⟨_, hstart⟩ := exists_directory_startOf h _
    exact ih (hdirectory hstart)
  | down _ _ hchild hnode _ ih =>
    exact ih fun other hlink => hnode other (Option.some.inj (hchild.symm.trans hlink))

/-- A walk leads to the same location in a tree that keeps directories and links. If links have been
replaced, the walk may break off at one of them instead. -/
theorem Walk.keeps {replaced : List Text → Prop} {a b : Node} {goal : Goal} {links : Nat}
    {here names : List Text} {p : Place} (hkeeps : Keeps replaced a b)
    (hgoal : goal = .itself ∨ ∀ location, ¬ replaced location) (h : Walk a goal links here names p)
    (hhere : ∃ entries, a.at? here = some (.directory entries)) :
    LeadsOrStops b (BreaksOff replaced a p) goal links here names p.location := by
  have hitself : BreaksOff replaced a p → goal = .itself := by
    rintro ⟨_, _, _, _, _, _, hreplaced, -⟩
    exact hgoal.resolve_right fun hnone => hnone _ hreplaced
  induction h with
  | done h =>
    obtain ⟨entries, hat⟩ := hhere
    obtain ⟨entries, hdir⟩ := hkeeps.directory hat
    exact .inl ⟨_, .done hdir, rfl⟩
  | skip h hname _ ih =>
    obtain ⟨entries, hdir⟩ := hkeeps.directory h
    apply (ih hhere hitself).step
    · exact fun _ hwalk => .skip hdir hname hwalk
    · exact fun _ _ _ => follow_skip hdir hname
  | back h _ ih =>
    obtain ⟨entries, hdir⟩ := hkeeps.directory h
    apply (ih (exists_directory_above (List.dropLast_prefix _) h) hitself).step
    · exact fun _ hwalk => .back hdir hwalk
    · exact fun _ _ _ => follow_back hdir
  | free h hname hchild =>
    obtain ⟨entries, hdir⟩ := hkeeps.directory h
    apply Or.inl
    apply exists_walk_last _ hdir hname
    apply hkeeps.not_link h
    intro target htarget
    cases hchild.symm.trans htarget
  | stay h hname hchild hend =>
    obtain ⟨entries, hdir⟩ := hkeeps.directory h
    rcases hkeeps.link hchild with hlink | ⟨-, leaf, hat, hleaf⟩
    · exact .inl ⟨_, .stay hdir hname hlink hend, rfl⟩
    · apply Or.inl
      apply exists_walk_last _ hdir hname
      intro target htarget
      cases Option.some.inj (hat.symm.trans htarget) ▸ hleaf
  | @link links here name names target p entries h hname hchild hend hwalk ih =>
    obtain ⟨entries, hdir⟩ := hkeeps.directory h
    rcases hkeeps.link hchild with hlink | ⟨hreplaced, leaf, hat, hleaf⟩
    · apply (ih (exists_directory_startOf h target) hitself).step
      · exact fun _ hwalk => .link hdir hname hlink hend hwalk
      · intro hstops goal' hgoal'
        have hmore : ¬ (names = [] ∧ goal' = .itself) := fun hnil => hend ⟨hnil.1, hitself hstops⟩
        exact follow_link hdir (hname.of_goal hgoal') hlink hmore
    · have hitself' : goal = .itself := hgoal.resolve_right fun hnone => hnone _ hreplaced
      have hnames : names ≠ [] := fun hnil => hend ⟨hnil, hitself'⟩
      have hstops : BreaksOff replaced a p :=
        ⟨links, here, name, names, target, hnames, hreplaced, hchild, hitself' ▸ hwalk⟩
      exact .of_leaf hstops hdir hname hat hleaf hnames
  | @down links here name names node p entries h hname hchild hnode hwalk ih =>
    obtain ⟨entries, hdir⟩ := hkeeps.directory h
    cases names with
    | nil =>
      rw [hwalk.location_nil]
      apply Or.inl
      apply exists_walk_last _ hdir hname
      apply hkeeps.not_link h
      intro target htarget
      exact hnode target (Option.some.inj (hchild.symm.trans htarget))
    | cons next names =>
      obtain ⟨below, hbelow⟩ := hwalk.exists_directory (List.cons_ne_nil next names)
      obtain ⟨below', hbelow'⟩ := hkeeps.directory hbelow
      apply (ih ⟨below, hbelow⟩ hitself).step
      · exact fun _ hwalk => .down hdir hname hbelow' (by simp) hwalk
      · exact fun _ _ hgoal' => follow_down hdir (hname.of_goal hgoal') hbelow' (by simp)

/-! ## Parts of walks -/

namespace Walk

section Parts

variable {top : Node} {goal : Goal} {links links' : Nat} {here names : List Text} {p q : Place}

theorem more_links (h : Walk top goal links here names p) (more : Nat) :
    Walk top goal (links + more) here names p := by
  induction h with
  | done h => exact .done h
  | skip h hname _ ih => exact .skip h hname ih
  | back h _ ih => exact .back h ih
  | free h hname hchild => exact .free h hname hchild
  | stay h hname hchild hgoal => exact .stay h hname hchild hgoal
  | link h hname hchild hgoal _ ih =>
    rw [Nat.add_right_comm]
    exact .link h hname hchild hgoal ih
  | down h hname hchild hnode _ ih => exact .down h hname hchild hnode ih

/-- Walks with the same names end at the same place, however many links they may follow. -/
theorem place_eq (hp : Walk top goal links here names p) (hq : Walk top goal links' here names q) :
    p = q := by
  have hfollow := (hp.more_links links').follow_eq
  rw [Nat.add_comm, (hq.more_links links).follow_eq] at hfollow
  exact (Except.ok.inj hfollow).symm

/-- The first names of a walk lead to a directory, from which the others lead on. -/
theorem exists_directory_of_append (h : Walk top goal links here names p) {first rest : List Text}
    (hnames : names = first ++ rest) (hrest : rest ≠ []) :
    ∃ below entries more, Walk top .target links here first (.entry below (.directory entries)) ∧
      Walk top goal more below rest p := by
  induction h generalizing first with
  | done h => exact absurd (List.append_eq_nil_iff.1 hnames.symm).2 hrest
  | @skip links here name names p entries h hname hwalk ih =>
    cases first with
    | nil =>
      obtain rfl : name :: names = rest := hnames
      exact ⟨here, entries, links, .done h, .skip h hname hwalk⟩
    | cons other first =>
      obtain ⟨rfl, rfl⟩ := List.cons.inj hnames
      obtain ⟨below, entries, more, hfirst, hlast⟩ := ih rfl
      exact ⟨below, entries, more, .skip h hname hfirst, hlast⟩
  | @back links here names p entries h hwalk ih =>
    cases first with
    | nil =>
      obtain rfl : Text.ofString ".." :: names = rest := hnames
      exact ⟨here, entries, links, .done h, .back h hwalk⟩
    | cons other first =>
      obtain ⟨rfl, rfl⟩ := List.cons.inj hnames
      obtain ⟨below, entries, more, hfirst, hlast⟩ := ih rfl
      exact ⟨below, entries, more, .back h hfirst, hlast⟩
  | @free links here name entries h hname hchild =>
    cases first with
    | nil =>
      obtain rfl : [name] = rest := hnames
      exact ⟨here, entries, links, .done h, .free h hname hchild⟩
    | cons other first => exact absurd (List.append_eq_nil_iff.1 (List.cons.inj hnames).2.symm).2 hrest
  | @stay links here name target entries h hname hchild hgoal =>
    cases first with
    | nil =>
      obtain rfl : [name] = rest := hnames
      exact ⟨here, entries, links, .done h, .stay h hname hchild hgoal⟩
    | cons other first => exact absurd (List.append_eq_nil_iff.1 (List.cons.inj hnames).2.symm).2 hrest
  | @link links here name names target p entries h hname hchild hgoal hwalk ih =>
    cases first with
    | nil =>
      obtain rfl : name :: names = rest := hnames
      exact ⟨here, entries, links + 1, .done h, .link h hname hchild hgoal hwalk⟩
    | cons other first =>
      obtain ⟨rfl, rfl⟩ := List.cons.inj hnames
      obtain ⟨below, entries, more, hfirst, hlast⟩ := ih (List.append_assoc ..).symm
      have hname' : IsName .target name first := hname.of_goal (by decide)
      exact ⟨below, entries, more, .link h hname' hchild (fun hend => by cases hend.2) hfirst, hlast⟩
  | @down links here name names node p entries h hname hchild hnode hwalk ih =>
    cases first with
    | nil =>
      obtain rfl : name :: names = rest := hnames
      exact ⟨here, entries, links, .done h, .down h hname hchild hnode hwalk⟩
    | cons other first =>
      obtain ⟨rfl, rfl⟩ := List.cons.inj hnames
      obtain ⟨below, entries, more, hfirst, hlast⟩ := ih rfl
      have hname' : IsName .target name first := hname.of_goal (by decide)
      exact ⟨below, entries, more, .down h hname' hchild hnode hfirst, hlast⟩

/-- Names that lead on from a directory may stand behind names that lead to it. -/
theorem append {first rest : List Text} {below : List Text} {entries : List (Text × Node)}
    (h : Walk top .target links here first (.entry below (.directory entries))) (hgoal : goal ≠ .fileTarget)
    (hrest : rest ≠ []) (hlast : ∀ more, Walk top goal more below rest p) :
    Walk top goal links here (first ++ rest) p := by
  generalize hplace : Place.entry below (.directory entries) = q at h
  induction h with
  | done h =>
    obtain ⟨rfl, rfl⟩ := Place.entry.inj hplace
    exact hlast _
  | skip h hname _ ih => exact .skip h hname (ih hplace)
  | back h _ ih => exact .back h (ih hplace)
  | free => cases hplace
  | stay => cases hplace
  | @link links here name names target q entries h hname hchild _ _ ih =>
    have hmore : ¬ (names ++ rest = [] ∧ goal = .itself) :=
      fun hend => hrest (List.append_eq_nil_iff.1 hend.1).2
    have hwalk := ih hplace
    rw [List.append_assoc] at hwalk
    exact .link h (hname.of_goal hgoal) hchild hmore hwalk
  | down h hname hchild hnode _ ih => exact .down h (hname.of_goal hgoal) hchild hnode (ih hplace)

/-- A walk with links followed at its end is one that ends there, or it goes on from a link at which the
walk without them ends. -/
theorem itself_of_target (h : Walk top .target links here names p) :
    Walk top .itself links here names p ∨ ∃ directory name target links',
      Walk top .itself links here names (.entry (directory ++ [name]) (.link target)) ∧
        Walk top .target links' (startOf directory target) (namesIn target) p := by
  induction h with
  | done h => exact .inl (.done h)
  | skip h hname _ ih =>
    apply ih.imp (.skip h hname)
    rintro ⟨directory, other, target, links', hlink, hwalk⟩
    exact ⟨directory, other, target, links', .skip h hname hlink, hwalk⟩
  | back h _ ih =>
    apply ih.imp (.back h)
    rintro ⟨directory, other, target, links', hlink, hwalk⟩
    exact ⟨directory, other, target, links', .back h hlink, hwalk⟩
  | free h hname hchild => exact .inl (.free h (hname.of_goal (by decide)) hchild)
  | stay _ _ _ hgoal => cases hgoal
  | @link links here name names target p entries h hname hchild hgoal hwalk ih =>
    have hname' : IsName .itself name names := hname.of_goal (by decide)
    cases names with
    | nil =>
      rw [List.append_nil] at hwalk
      exact .inr ⟨here, name, target, links, .stay h hname' hchild rfl, hwalk⟩
    | cons next names =>
      have hmore : ¬ (next :: names = [] ∧ Goal.itself = .itself) := fun hnil => by cases hnil.1
      apply ih.imp (.link h hname' hchild hmore)
      rintro ⟨directory, other, target, links', hlink, hwalk⟩
      exact ⟨directory, other, target, links', .link h hname' hchild hmore hlink, hwalk⟩
  | @down links here name names node p entries h hname hchild hnode _ ih =>
    have hname' : IsName .itself name names := hname.of_goal (by decide)
    apply ih.imp (.down h hname' hchild hnode)
    rintro ⟨directory, other, target, links', hlink, hwalk⟩
    exact ⟨directory, other, target, links', .down h hname' hchild hnode hlink, hwalk⟩

/-- A path by which something is seen that no path leads on through does not go on through what stands at
its own end: a link that it went on through would lead to a directory. -/
theorem not_breaksOff {location : List Text} {leaf : Node}
    (h : Walk top .target links here names (.entry location leaf)) (hleaf : leaf.isLeaf)
    (hq : Walk top .itself links' here names q) : ¬ BreaksOff (· = q.location) top q := by
  rintro ⟨more, directory, name, rest, target, hrest, hend, hlink, hwalk⟩
  obtain ⟨below, entries, -, hbelow, -⟩ := hwalk.exists_directory_of_append rfl hrest
  rcases h.itself_of_target with hitself | ⟨directory', name', target', links', hitself, htarget⟩
  · obtain rfl := hq.place_eq hitself
    have hstands : top.at? location = some leaf := h.stands
    rw [show directory ++ [name] = location from hend, hstands] at hlink
    cases Option.some.inj hlink ▸ hleaf
  · obtain rfl := hq.place_eq hitself
    obtain ⟨rfl, heq⟩ := List.append_inj' hend rfl
    obtain rfl := List.singleton_inj.1 heq
    have hstands : top.at? (directory ++ [name]) = some (.link target') := hitself.stands
    obtain rfl := Node.link.inj (Option.some.inj (hlink.symm.trans hstands))
    cases htarget.place_eq hbelow
    cases hleaf

end Parts

end Walk

end ModuleCatalog.FileSystem
