import Mathlib.Data.List.DropRight
import ModuleCatalog.FileSystem.Change
import ModuleCatalog.Proofs.FileSystem.Replacement
import ModuleCatalog.Proofs.Text.Literal
import ModuleCatalog.Proofs.Text.Pieces
import ModuleCatalog.Proofs.Text.RawByte

/-!
# Last names of paths

A path that leads to a free place or a file leads to one with the last name of the path, in the form in which
it is read. This form has as many bytes as the name itself. So a path never leads to a temporary file that
has been made for it, whose name is longer.
-/

namespace ModuleCatalog

/-! ## What follows the last separator -/

section Separator

variable {α : Type} [DecidableEq α] {separator : α} {s t : List α}

/-- What follows the last separator, or everything if there is none. -/
def afterLast (separator : α) (t : List α) : List α := t.rtakeWhile fun c => decide (c ≠ separator)

theorem afterLast_append (ht : separator ∉ t) :
    afterLast separator (s ++ t) = afterLast separator s ++ t := by
  induction t using List.reverseRecOn with
  | nil => rw [List.append_nil, List.append_nil]
  | append_singleton t c ih =>
    rw [List.mem_append, List.mem_singleton, not_or] at ht
    have hc : decide (c ≠ separator) = true := decide_eq_true (Ne.symm ht.2)
    calc afterLast separator (s ++ (t ++ [c]))
        = afterLast separator (s ++ t ++ [c]) := by rw [List.append_assoc]
      _ = afterLast separator (s ++ t) ++ [c] := List.rtakeWhile_concat_pos _ _ _ hc
      _ = afterLast separator s ++ (t ++ [c]) := by rw [ih ht.1, List.append_assoc]

theorem afterLast_of_not_mem (ht : separator ∉ t) : afterLast separator t = t :=
  List.rtakeWhile_eq_self_iff.2 fun _ hc => decide_eq_true (ne_of_mem_of_not_mem hc ht)

/-- Either there is no separator or there is a last one. -/
theorem not_mem_or_eq_append_cons (separator : α) (t : List α) :
    separator ∉ t ∨ ∃ before after, t = before ++ separator :: after ∧ separator ∉ after := by
  by_cases h : separator ∈ t
  · obtain ⟨after, before, heq, hafter⟩ := List.eq_append_cons_of_mem (List.mem_reverse.2 h)
    refine .inr ⟨before.reverse, after.reverse, ?_, by simpa using hafter⟩
    rw [← List.reverse_reverse t, heq]
    simp
  · exact .inl h

theorem afterLast_append_cons (separator : α) (s t : List α) :
    afterLast separator (s ++ separator :: t) = afterLast separator t := by
  have hself : ∀ s, afterLast separator (s ++ [separator]) = [] :=
    fun s => List.rtakeWhile_concat_neg _ _ _ (by simp)
  have hlast : ∀ {s t}, separator ∉ t → afterLast separator (s ++ separator :: t) = t := by
    intro s t ht
    rw [List.append_cons, afterLast_append ht, hself, List.nil_append]
  rcases not_mem_or_eq_append_cons separator t with hfree | ⟨before, after, rfl, hafter⟩
  · rw [hlast hfree, afterLast_of_not_mem hfree]
  · rw [← List.cons_append, ← List.append_assoc, hlast hafter, hlast hafter]

end Separator

namespace Text

/-- The last piece of a text. -/
theorem exists_splitOn_eq (separator : CodePoint) (t : Text) :
    ∃ pieces, splitOn separator t = pieces ++ [afterLast separator t] := by
  rcases not_mem_or_eq_append_cons separator t with hfree | ⟨before, after, rfl, hafter⟩
  · exact ⟨[], by rw [splitOn_of_not_mem hfree, afterLast_of_not_mem hfree, List.nil_append]⟩
  · exact ⟨_, by rw [splitOn_append_cons, splitOn_of_not_mem hafter, afterLast_append_cons,
      afterLast_of_not_mem hafter]⟩

end Text

/-! ## Sizes of last names -/

namespace FileSystem

/-- What follows the last slash of a path. -/
def lastName (path : Text) : Text := afterLast (.scalar '/') path

theorem byteLength_of_encodeRaw {t : Text} {bytes : Bytes} {position : Nat}
    (h : Utf8.encodeRawFrom position t = .ok bytes) : byteLength t = bytes.length :=
  Utf8.length_encodeLossy h

theorem byteLength_lastName {t : Text} {bytes : Bytes} (h : Utf8.encodeRaw t = .ok bytes) :
    byteLength (lastName t) = (afterLast 0x2F bytes).length := by
  have hslash : ∀ {s : Text} {bytes : Bytes} {position : Nat},
      Utf8.encodeRawFrom position s = .ok bytes → CodePoint.scalar '/' ∉ s → 0x2F ∉ bytes := by
    intro s bytes position hs hfree hmem
    exact hfree (Utf8.mem_of_encodeRawFrom hs rfl (by decide) hmem)
  rcases not_mem_or_eq_append_cons (CodePoint.scalar '/') t with hfree | ⟨before, after, rfl, hafter⟩
  · rw [lastName, afterLast_of_not_mem hfree, afterLast_of_not_mem (hslash h hfree),
      byteLength_of_encodeRaw h]
  · obtain ⟨first, second, position, -, hsecond, rfl⟩ := Utf8.exists_of_encodeRawFrom_append h
    obtain ⟨slash, last, hone, hlast, rfl⟩ := Utf8.encodeRawFrom_cons_eq_ok_iff.1 hsecond
    obtain rfl : [0x2F] = slash := Option.some.inj hone
    rw [lastName, afterLast_append_cons, afterLast_of_not_mem hafter, List.singleton_append,
      afterLast_append_cons, afterLast_of_not_mem (hslash hlast hafter), byteLength_of_encodeRaw hlast]

/-- The last name of a path has as many bytes in the form in which it is read. -/
theorem byteLength_lastName_asRead (path : Text) :
    byteLength (lastName (Utf8.asRead path)) = byteLength (lastName path) := by
  unfold Utf8.asRead
  split
  · rfl
  · cases hraw : Utf8.encodeRaw path with
    | error e => rfl
    | ok bytes =>
      dsimp only
      rw [byteLength_lastName hraw, byteLength_lastName (Utf8.encodeRaw_decodeRaw bytes)]

/-! ## Where paths end -/

theorem endsWith_slash_iff {path : Text} :
    Text.endsWith path "/" ↔ ∃ before, path = before ++ [CodePoint.scalar '/'] := by
  rw [Text.endsWith, Text.startsWith_iff]
  constructor
  · rintro ⟨rest, hrest⟩
    refine ⟨rest.reverse, ?_⟩
    rw [← List.reverse_reverse path, ← hrest, List.reverse_append, List.reverse_reverse]
    rfl
  · rintro ⟨before, rfl⟩
    exact ⟨before.reverse, by rw [List.reverse_append]; rfl⟩

theorem lastName_eq_nil_iff {path : Text} (hpath : path ≠ []) :
    lastName path = [] ↔ Text.endsWith path "/" := by
  rw [endsWith_slash_iff]
  constructor
  · intro hlast
    rcases not_mem_or_eq_append_cons (CodePoint.scalar '/') path with hfree | ⟨before, after, rfl, hafter⟩
    · rw [lastName, afterLast_of_not_mem hfree] at hlast
      exact absurd hlast hpath
    · rw [lastName, afterLast_append_cons, afterLast_of_not_mem hafter] at hlast
      exact ⟨before, by rw [hlast]⟩
  · rintro ⟨before, rfl⟩
    exact afterLast_append_cons (.scalar '/') before []

theorem exists_namesIn_eq {path : Text} (hpath : path ≠ []) :
    ∃ names, namesIn path = names ++ [lastName path] := by
  obtain ⟨pieces, hpieces⟩ := Text.exists_splitOn_eq (.scalar '/') path
  have hlast := lastName_eq_nil_iff hpath
  unfold namesIn
  dsimp only
  by_cases hslash : Text.endsWith path "/"
  · rw [if_pos hslash, hlast.2 hslash]
    exact ⟨_, rfl⟩
  · have hne : afterLast (.scalar '/') path ≠ [] := fun hnil => hslash (hlast.1 hnil)
    rw [if_neg hslash, hpieces, List.filter_append, List.filter_cons_of_pos (by simpa using hne)]
    exact ⟨_, rfl⟩

/-- A walk ends at a directory or at its last name. -/
theorem Walk.directory_or_last {top : Node} {links : Nat} {here names : List Text} {last : Text} {p : Place}
    (h : Walk top .itself links here names p) (hlast : ∃ before, names = before ++ [last]) :
    (∃ entries, top.at? p.location = some (.directory entries)) ∨
      ∃ directory, p.location = directory ++ [last] := by
  -- A name that is not the last one leaves names of which the last one is the same.
  have hrest : ∀ {name : Text} {names : List Text}, (∃ before, name :: names = before ++ [last]) →
      (names = [] ∧ name = last) ∨ ∃ before, names = before ++ [last] := by
    rintro name names ⟨before, heq⟩
    cases before with
    | nil => exact .inl ⟨(List.cons.inj heq).2, (List.cons.inj heq).1⟩
    | cons first before => exact .inr ⟨before, (List.cons.inj heq).2⟩
  induction h with
  | done h =>
    obtain ⟨before, heq⟩ := hlast
    exact absurd heq.symm (by simp)
  | skip h hname hwalk ih =>
    rcases hrest hlast with ⟨rfl, -⟩ | hlast
    · rw [hwalk.location_nil]
      exact .inl ⟨_, h⟩
    · exact ih hlast
  | back h hwalk ih =>
    rcases hrest hlast with ⟨rfl, -⟩ | hlast
    · rw [hwalk.location_nil]
      exact .inl (exists_directory_above (List.dropLast_prefix _) h)
    · exact ih hlast
  | free h hname hchild =>
    rcases hrest hlast with ⟨-, rfl⟩ | hlast
    · exact .inr ⟨_, rfl⟩
    · simp at hlast
  | stay h hname hchild hgoal =>
    rcases hrest hlast with ⟨-, rfl⟩ | hlast
    · exact .inr ⟨_, rfl⟩
    · simp at hlast
  | link h hname hchild hgoal hwalk ih =>
    rcases hrest hlast with ⟨hnil, -⟩ | ⟨before, rfl⟩
    · exact absurd ⟨hnil, rfl⟩ hgoal
    · exact ih ⟨_, (List.append_assoc ..).symm⟩
  | down h hname hchild hnode hwalk ih =>
    rcases hrest hlast with ⟨rfl, rfl⟩ | hlast
    · rw [hwalk.location_nil]
      exact .inr ⟨_, rfl⟩
    · exact ih hlast

theorem LeadsTo.directory_or_last {fs : FileSystem} {path : Text} {location : List Text}
    (h : fs.LeadsTo .itself path location) : (∃ entries, fs.top.at? location = some (.directory entries)) ∨
      ∃ directory, location = directory ++ [lastName (Utf8.asRead path)] := by
  obtain ⟨p, hp, rfl⟩ := h
  obtain ⟨hempty, -, hwalk⟩ := lookup_eq_ok_iff.1 hp
  exact hwalk.directory_or_last (exists_namesIn_eq hempty)

/-! ## Temporary files -/

/-- Whether a location is one of a temporary file of a target: its name is longer than that of the target. -/
def IsBeside (target : Path) (location : List Text) : Prop :=
  ∃ directory name, location = directory ++ [name] ∧ byteLength (lastName target.toText) < byteLength name

/-- A target leads to no temporary file of its own. -/
theorem not_isBeside_of_leadsTo {fs : FileSystem} {target : Path} {location : List Text}
    (h : fs.LeadsTo .itself target.toText location)
    (hfile : ∀ node, fs.top.at? location = some node → node.isDirectory = false) :
    ¬ IsBeside target location := by
  rintro ⟨directory, name, rfl, hlonger⟩
  rcases h.directory_or_last with ⟨entries, hdirectory⟩ | ⟨other, heq⟩
  · cases hfile _ hdirectory
  · have hname : name = lastName (Utf8.asRead target.toText) :=
      List.singleton_inj.1 (List.append_inj_right' heq rfl)
    rw [hname, byteLength_lastName_asRead] at hlonger
    exact Nat.lt_irrefl _ hlonger

theorem slash_not_mem_nameOf (count n : Nat) : CodePoint.scalar '/' ∉ nameOf count n := by
  have halphabet : ∀ i < 37, nameAlphabet.getD i (.scalar 'a') ≠ .scalar '/' := by decide
  induction count generalizing n with
  | zero => exact List.not_mem_nil
  | succ count ih =>
    rw [nameOf, List.mem_append, List.mem_singleton, not_or]
    refine ⟨ih _, fun heq => halphabet (n % nameAlphabet.length) ?_ heq.symm⟩
    exact Nat.mod_lt n (by decide)

theorem byteLength_append (s t : Text) : byteLength (s ++ t) = byteLength s + byteLength t := by
  rw [byteLength, Utf8.encodeLossy, List.flatMap_append, List.length_append]
  rfl

theorem joinWith_concat (separator : Text) (pieces : List Text) (last : Text) :
    Text.joinWith separator (pieces ++ [last]) = last ∨
      ∃ before, Text.joinWith separator (pieces ++ [last]) = before ++ separator ++ last := by
  induction pieces with
  | nil => exact .inl rfl
  | cons piece pieces ih =>
    obtain ⟨next, rest, heq⟩ := List.exists_cons_of_ne_nil (List.concat_ne_nil last pieces)
    have hjoin : Text.joinWith separator (piece :: pieces ++ [last]) =
        piece ++ separator ++ Text.joinWith separator (pieces ++ [last]) := by
      rw [List.cons_append, heq]
      rfl
    rw [hjoin]
    rcases ih with hlast | ⟨before, hlast⟩
    · exact .inr ⟨piece, by rw [hlast]⟩
    · exact .inr ⟨piece ++ separator ++ before, by rw [hlast]; simp only [List.append_assoc]⟩

theorem lastName_joinWith (pieces : List Text) (last : Text) :
    lastName (Text.joinWith "/" (pieces ++ [last])) = lastName last := by
  rcases joinWith_concat "/" pieces last with heq | ⟨before, heq⟩
  · rw [heq]
  · rw [heq, List.append_assoc]
    exact afterLast_append_cons (.scalar '/') before last

theorem lastName_root_append (root : PathRoot) (path : Text) :
    lastName (Path.PathRoot.text root ++ path) = lastName path := by
  cases root with
  | relative => rfl
  | slash => exact afterLast_append_cons (.scalar '/') [] path
  | doubleSlash => exact afterLast_append_cons (.scalar '/') [.scalar '/'] path

theorem lastName_toText_child (path : Path) (name : Text) :
    lastName (path.child name).toText = lastName name := by
  have hparts : ¬ (path.root = .relative ∧ path.parts ++ [name] = []) := by simp
  rw [Path.toText, Path.child, if_neg hparts, lastName_root_append, lastName_joinWith]

theorem byteLength_lastName_toText_le (path : Path) :
    byteLength (lastName path.toText) ≤ byteLength (lastName path.name) + 1 := by
  by_cases hparts : path.parts = []
  · obtain ⟨root, parts⟩ := path
    obtain rfl : parts = [] := hparts
    cases root <;> decide
  · have hname : path.parts.dropLast ++ [path.name] = path.parts := by
      rw [Path.name, List.getLast?_eq_some_getLast hparts]
      exact List.dropLast_append_getLast hparts
    have hroot : ¬ (path.root = .relative ∧ path.parts = []) := fun h => hparts h.2
    rw [Path.toText, if_neg hroot, lastName_root_append, ← hname, lastName_joinWith]
    exact Nat.le_succ _

theorem byteLength_lastName_dot_append (name : Text) :
    byteLength (lastName name) ≤ byteLength (lastName ("." ++ name)) := by
  rcases not_mem_or_eq_append_cons (CodePoint.scalar '/') name with hfree | ⟨before, after, rfl, hafter⟩
  · have hdot : CodePoint.scalar '/' ∉ Text.ofString "." ++ name := by
      rw [List.mem_append, not_or]
      exact ⟨by decide, hfree⟩
    rw [lastName, afterLast_of_not_mem hfree, lastName, afterLast_of_not_mem hdot, byteLength_append]
    exact Nat.le_add_left _ _
  · rw [← List.append_assoc, lastName, lastName, afterLast_append_cons, afterLast_append_cons]

/-- The name of a temporary file is longer than that of its target. -/
theorem byteLength_lastName_temporaryName (target : Path) (n : Nat) :
    byteLength (lastName target.toText) < byteLength (lastName (temporaryName target n)) := by
  have hend : CodePoint.scalar '/' ∉ Text.ofString "." ++ nameOf 8 n ++ Text.ofString ".tmp" := by
    rw [List.mem_append, List.mem_append, not_or, not_or]
    exact ⟨⟨by decide, slash_not_mem_nameOf 8 n⟩, by decide⟩
  have hsplit : lastName (temporaryName target n) =
      lastName ("." ++ target.name) ++ (Text.ofString "." ++ nameOf 8 n ++ Text.ofString ".tmp") := by
    rw [lastName, lastName, ← afterLast_append hend]
    simp only [temporaryName, List.append_assoc]
  have htmp : byteLength (Text.ofString ".tmp") = 4 := by decide
  have hle := byteLength_lastName_toText_le target
  have hdot := byteLength_lastName_dot_append target.name
  rw [hsplit, byteLength_append, byteLength_append, htmp]
  omega

theorem eq_child_of_createFrom {fs after : FileSystem} {target temporary : Path} {tries n : Nat}
    (h : fs.createFrom target tries n = .ok (temporary, after)) :
    ∃ n, temporary = (fs.absolute target.parent).child (temporaryName target n) := by
  induction tries generalizing n with
  | zero => cases h
  | succ tries ih =>
    simp only [createFrom, bind_eq_ok_iff] at h
    obtain ⟨p, -, hresult⟩ := h
    cases p with
    | entry location node => exact ih hresult
    | free directory name => exact ⟨n, (Prod.mk.inj (Except.ok.inj hresult)).1.symm⟩

/-- A new temporary file has a longer name than the target. -/
theorem isBeside_of_createFrom {fs after : FileSystem} {target temporary : Path} {tries n : Nat}
    {location : List Text} (hcreate : fs.createFrom target tries n = .ok (temporary, after))
    (h : fs.LeadsTo .itself temporary.toText location) (hfree : fs.top.at? location = none) :
    IsBeside target location := by
  obtain ⟨n, rfl⟩ := eq_child_of_createFrom hcreate
  rcases h.directory_or_last with ⟨entries, hdirectory⟩ | ⟨above, heq⟩
  · cases hfree.symm.trans hdirectory
  · refine ⟨above, _, heq, ?_⟩
    rw [byteLength_lastName_asRead, lastName_toText_child]
    exact byteLength_lastName_temporaryName target n

end FileSystem

end ModuleCatalog
