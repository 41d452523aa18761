import Mathlib.Tactic.Tauto
import ModuleCatalog.Proofs.FileSystem.LastName
import ModuleCatalog.Proofs.Text.AsRead

/-!
# Paths of entries

The path of an entry is followed by following that of its directory and then looking up one name there. So what
it leads to depends on no more than where its directory is and on what has the name in it.
-/

namespace ModuleCatalog.FileSystem

/-! ## Texts of paths -/

/-- Whether a text may be the name of an entry. -/
structure IsEntryName (name : Text) : Prop where
  ne_nil : name ≠ []
  no_slash : CodePoint.scalar '/' ∉ name

theorem toText_child_of_ne_nil {p : Path} (h : p.parts ≠ []) (name : Text) :
    (p.child name).toText = p.toText ++ .scalar '/' :: name := by
  have hp : ¬ (p.root = .relative ∧ p.parts = []) := fun hnil => h hnil.2
  have hchild : ¬ (p.root = .relative ∧ p.parts ++ [name] = []) := by simp
  rw [Path.toText, Path.child, if_neg hchild, Path.toText, if_neg hp, Text.joinWith_concat_of_ne_nil "/" h]
  simp only [List.append_assoc]
  rfl

/-! ## Names in the text of a path -/

theorem IsEntryName.asRead {name : Text} (h : IsEntryName name) : IsEntryName (Utf8.asRead name) :=
  ⟨Utf8.asRead_ne_nil h.ne_nil, fun hmem => h.no_slash (Utf8.mem_of_mem_asRead (by decide) hmem)⟩

theorem not_endsWith_slash {before name : Text} (h : IsEntryName name) :
    ¬ Text.endsWith (before ++ name) "/" := by
  rw [endsWith_slash_iff]
  rintro ⟨other, heq⟩
  have hlast : (before ++ name).getLast? = some (.scalar '/') := by rw [heq, List.getLast?_concat]
  rw [List.getLast?_append_of_ne_nil _ h.ne_nil] at hlast
  exact h.no_slash (List.mem_of_getLast? hlast)

theorem namesIn_of_isEntryName {name : Text} (h : IsEntryName name) : namesIn name = [name] := by
  have hend : ¬ Text.endsWith ([] ++ name) "/" := not_endsWith_slash h
  unfold namesIn
  dsimp only
  rw [List.nil_append] at hend
  rw [if_neg hend, Text.splitOn_of_not_mem h.no_slash, List.filter_singleton]
  simp [h.ne_nil]

theorem namesIn_append_slash (before : Text) {name : Text} (h : IsEntryName name) :
    namesIn (before ++ .scalar '/' :: name) = (Text.splitOn '/' before).filter (· ≠ []) ++ [name] := by
  have hend : ¬ Text.endsWith (before ++ .scalar '/' :: name) "/" := by
    rw [List.append_cons]
    exact not_endsWith_slash h
  have hname : ([name] : List Text).filter (· ≠ []) = [name] := by simp [h.ne_nil]
  unfold namesIn
  dsimp only
  rw [if_neg hend, Text.splitOn_append_cons, List.filter_append, Text.splitOn_of_not_mem h.no_slash, hname]

theorem exists_namesIn_eq_append (path : Text) : ∃ dots, namesIn path =
    (Text.splitOn '/' path).filter (· ≠ []) ++ dots ∧ ∀ name ∈ dots, name = [] ∨ name = "." := by
  unfold namesIn
  dsimp only
  split
  · exact ⟨[[]], rfl, by simp⟩
  · exact ⟨[], (List.append_nil _).symm, by simp⟩

theorem startOf_append {path : Text} (hpath : path ≠ []) (here : List Text) (rest : Text) :
    startOf here (path ++ rest) = startOf here path := by
  obtain ⟨c, path, rfl⟩ := List.exists_cons_of_ne_nil hpath
  have hfirst : ∀ t : Text, Text.startsWith (c :: t) "/" = decide (CodePoint.scalar '/' = c) := by
    intro t
    by_cases hc : CodePoint.scalar '/' = c <;> simp [Text.startsWith, Text.ofString, Text.dropLiteral?, hc]
  rw [startOf, startOf, List.cons_append, hfirst, hfirst]

theorem startOf_of_isEntryName {name : Text} (h : IsEntryName name) (here : List Text) :
    startOf here name = here := by
  unfold startOf
  refine if_neg fun hslash => h.no_slash ?_
  obtain ⟨rest, hrest⟩ := Text.startsWith_iff.1 hslash
  rw [← hrest]
  exact List.mem_append_left _ List.mem_cons_self

/-- The names in the path of an entry are those in the path of its directory, but for dots at the end, and the
name of the entry. -/
theorem namesIn_child {p : Path} {name : Text} (hname : IsEntryName name) (hp : p.toText ≠ [])
    {bytes : Bytes} (hencode : Utf8.encodeRaw (p.child name).toText = .ok bytes) (here : List Text) :
    startOf here (Utf8.asRead (p.child name).toText) = startOf here (Utf8.asRead p.toText) ∧
      ∃ first dots, namesIn (Utf8.asRead (p.child name).toText) = first ++ [Utf8.asRead name] ∧
        namesIn (Utf8.asRead p.toText) = first ++ dots ∧ ∀ name ∈ dots, name = [] ∨ name = "." := by
  have hread := hname.asRead
  by_cases hparts : p.parts = []
  · obtain ⟨root, parts⟩ := p
    obtain rfl : parts = [] := hparts
    cases root with
    | relative =>
      have hchild : (Path.child ⟨.relative, []⟩ name).toText = name := rfl
      have hdot : Utf8.asRead (Path.toText ⟨.relative, []⟩) = "." := by decide
      rw [hchild, hdot]
      refine ⟨startOf_of_isEntryName hread here, [], ["."], ?_, by decide, by simp⟩
      exact namesIn_of_isEntryName hread
    | slash =>
      have hchild : (Path.child ⟨.slash, []⟩ name).toText = [] ++ .scalar '/' :: name := rfl
      rw [hchild] at hencode ⊢
      rw [Utf8.asRead_append (by decide) hencode]
      refine ⟨startOf_append (List.cons_ne_nil (CodePoint.scalar '/') []) here _, [], [[]], ?_, by decide, by simp⟩
      exact namesIn_append_slash _ hread
    | doubleSlash =>
      have hchild : (Path.child ⟨.doubleSlash, []⟩ name).toText = [.scalar '/'] ++ .scalar '/' :: name := rfl
      rw [hchild] at hencode ⊢
      rw [Utf8.asRead_append (by decide) hencode]
      refine ⟨startOf_append (List.cons_ne_nil (CodePoint.scalar '/') [.scalar '/']) here _, [], [[]], ?_, by decide, by simp⟩
      exact namesIn_append_slash _ hread
  · rw [toText_child_of_ne_nil hparts name] at hencode ⊢
    obtain ⟨dots, hdots, hskip⟩ := exists_namesIn_eq_append (Utf8.asRead p.toText)
    rw [Utf8.asRead_append (by decide) hencode]
    exact ⟨startOf_append (Utf8.asRead_ne_nil hp) here _, _, dots, namesIn_append_slash _ hread, hdots, hskip⟩

/-! ## One name more -/

namespace Walk

variable {top : Node} {goal : Goal} {links : Nat} {here : List Text} {p : Place}

theorem of_dots {dots : List Text} (hdots : ∀ name ∈ dots, name = [] ∨ name = ".")
    {entries : List (Text × Node)} (h : top.at? here = some (.directory entries)) :
    Walk top goal links here dots (.entry here (.directory entries)) := by
  induction dots with
  | nil => exact .done h
  | cons name dots ih =>
    have hrest := ih fun other hother => hdots other (List.mem_cons_of_mem _ hother)
    exact .skip h (hdots name List.mem_cons_self) hrest

theorem location_of_dots {dots : List Text} (hdots : ∀ name ∈ dots, name = [] ∨ name = ".")
    {entries : List (Text × Node)} (h : top.at? here = some (.directory entries))
    (hwalk : Walk top goal links here dots p) : p = .entry here (.directory entries) := by
  have hhere : Walk top goal links here dots (.entry here (.directory entries)) := of_dots hdots h
  exact hwalk.place_eq hhere

/-- No link is followed for a single name. -/
theorem of_last {name : Text} (h : Walk top .itself links here [name] p) (more : Nat) :
    Walk top .itself more here [name] p := by
  cases h with
  | skip h hname hwalk =>
    cases hwalk with
    | done hat => exact .skip h hname (.done hat)
  | back h hwalk =>
    cases hwalk with
    | done hat => exact .back h (.done hat)
  | free h hname hchild => exact .free h hname hchild
  | stay h hname hchild hgoal => exact .stay h hname hchild hgoal
  | link _ _ _ hgoal => exact absurd ⟨rfl, rfl⟩ hgoal
  | down h hname hchild hnode hwalk =>
    cases hwalk with
    | done hat => exact .down h hname hchild hnode (.done hat)

/-- A single name leads to what has the name, or to a directory by dots. -/
theorem isName_or_dots {name : Text} (h : Walk top .itself links here [name] p) :
    (IsName .itself name [] ∧ p.location = here ++ [name]) ∨
      ((name = [] ∨ name = "." ∨ name = "..") ∧ ∃ entries, top.at? p.location = some (.directory entries)) := by
  cases h with
  | skip h hname hwalk =>
    rw [hwalk.location_nil]
    exact .inr ⟨by tauto, _, h⟩
  | back h hwalk =>
    rw [hwalk.location_nil]
    exact .inr ⟨.inr (.inr rfl), exists_directory_above (List.dropLast_prefix _) h⟩
  | free h hname hchild => exact .inl ⟨hname, rfl⟩
  | stay h hname hchild hgoal => exact .inl ⟨hname, rfl⟩
  | link _ _ _ hgoal => exact absurd ⟨rfl, rfl⟩ hgoal
  | down h hname hchild hnode hwalk =>
    rw [hwalk.location_nil]
    exact .inl ⟨hname, rfl⟩

/-- A name that can be looked up leads to what has it, or to the free place for it. -/
theorem exists_last (links : Nat) {name : Text} {entries : List (Text × Node)}
    (h : top.at? here = some (.directory entries)) (hname : IsName .itself name []) :
    ∃ p, Walk top .itself links here [name] p ∧ p.location = here ++ [name] := by
  cases hchild : top.at? (here ++ [name]) with
  | none => exact ⟨_, .free h hname hchild, rfl⟩
  | some node =>
    by_cases hlink : ∃ target, node = .link target
    · obtain ⟨target, rfl⟩ := hlink
      exact ⟨_, .stay h hname hchild rfl, rfl⟩
    · exact ⟨_, .down h hname hchild (fun target heq => hlink ⟨target, heq⟩) (.done hchild), rfl⟩

end Walk

/-! ## Sizes -/

theorem byteLength_asRead (t : Text) : byteLength (Utf8.asRead t) = byteLength t := by
  cases hraw : Utf8.encodeRaw t with
  | ok bytes =>
    rw [byteLength_of_encodeRaw hraw]
    exact byteLength_of_encodeRaw (Utf8.encodeRaw_asRead hraw)
  | error e =>
    have hsame : Utf8.asRead t = t := by
      unfold Utf8.asRead
      rw [hraw]
      split <;> rfl
    rw [hsame]

theorem byteLength_pos {t : Text} (h : t ≠ []) : 0 < byteLength t := by
  obtain ⟨c, t, rfl⟩ := List.exists_cons_of_ne_nil h
  have hfirst : 0 < byteLength [c] := by
    cases c with
    | surrogate offset => exact Nat.zero_lt_one
    | scalar c =>
      have hencode : Utf8.encodeChar c = Utf8.encodeChar c ++ [] := (List.append_nil _).symm
      rw [byteLength, Utf8.encodeLossy, List.flatMap_singleton]
      exact Utf8.length_lt_of_encodeChar_append hencode
  rw [← List.singleton_append, byteLength_append]
  exact Nat.add_pos_left hfirst _

theorem byteLength_toText_le_child (p : Path) {name : Text} (hname : name ≠ []) :
    byteLength p.toText ≤ byteLength (p.child name).toText := by
  by_cases hparts : p.parts = []
  · obtain ⟨root, parts⟩ := p
    obtain rfl : parts = [] := hparts
    cases root with
    | relative =>
      have hpos := byteLength_pos hname
      exact hpos
    | slash =>
      have hchild : (Path.child ⟨.slash, []⟩ name).toText = (Path.toText ⟨.slash, []⟩) ++ name := rfl
      rw [hchild, byteLength_append]
      exact Nat.le_add_right _ _
    | doubleSlash =>
      have hchild : (Path.child ⟨.doubleSlash, []⟩ name).toText = (Path.toText ⟨.doubleSlash, []⟩) ++ name := rfl
      rw [hchild, byteLength_append]
      exact Nat.le_add_right _ _
  · rw [toText_child_of_ne_nil hparts, byteLength_append]
    exact Nat.le_add_right _ _

/-! ## Entries of directories -/

/-- The path of an entry leads where its name leads in the directory. -/
theorem lookup_child_eq_ok_iff {fs : FileSystem} {path : Path} {name : Text} {bytes : Bytes} {place : Place}
    (hname : IsEntryName name) (hpath : path.toText ≠ [])
    (hencode : Utf8.encodeRaw (path.child name).toText = .ok bytes) :
    fs.lookup .itself (path.child name).toText = .ok place ↔
      byteLength (path.child name).toText < pathBytesLimit ∧ ∃ location entries links,
        fs.lookup .target path.toText = .ok (.entry location (.directory entries)) ∧
          Walk fs.top .itself links location [Utf8.asRead name] place := by
  obtain ⟨hstart, first, dots, hchild, hparent, hdots⟩ := namesIn_child hname hpath hencode fs.working
  have hle := byteLength_toText_le_child path hname.ne_nil
  have hnonempty : Utf8.asRead (path.child name).toText ≠ [] := by
    apply Utf8.asRead_ne_nil
    intro hnil
    rw [hnil] at hle
    exact absurd (byteLength_pos hpath) (Nat.not_lt.2 hle)
  simp only [lookup_eq_ok_iff, hstart, hchild, hparent, byteLength_asRead]
  constructor
  · rintro ⟨-, hshort, hwalk⟩
    obtain ⟨below, entries, more, hfirst, hlast⟩ := hwalk.exists_directory_of_append rfl (by simp)
    refine ⟨hshort, below, entries, more, ⟨Utf8.asRead_ne_nil hpath, Nat.lt_of_le_of_lt hle hshort, ?_⟩, hlast⟩
    by_cases hnil : dots = []
    · rwa [hnil, List.append_nil]
    · apply hfirst.append (by decide) hnil
      exact fun _ => Walk.of_dots hdots hfirst.stands
  · rintro ⟨hshort, location, entries, links, ⟨-, -, hwalk⟩, hlast⟩
    refine ⟨hnonempty, hshort, ?_⟩
    have hfirst : Walk fs.top .target maxLinks (startOf fs.working (Utf8.asRead path.toText)) first
        (.entry location (.directory entries)) := by
      by_cases hnil : dots = []
      · rwa [hnil, List.append_nil] at hwalk
      · obtain ⟨below, entries', more, hfirst, hrest⟩ := hwalk.exists_directory_of_append rfl hnil
        rwa [Walk.location_of_dots hdots hfirst.stands hrest]
    exact hfirst.append (by decide) (by simp) hlast.of_last

end ModuleCatalog.FileSystem
