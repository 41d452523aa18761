import ModuleCatalog.Proofs.FileSystem.Parents
import ModuleCatalog.Proofs.Text.Unicode

/-!
# Null characters in paths

A request is refused for a null character only if there is one in a part of its path. Temporary names add
none, so storing is refused for one only if the target or the working directory has it.
-/

namespace ModuleCatalog.FileSystem

/-- Whether a part of a path has a null character in it. -/
def HasNul (p : Path) : Prop := ∃ part ∈ p.parts, CodePoint.scalar '\x00' ∈ part

/-! ## Texts of paths -/

theorem hasNul_of_mem_toText {p : Path} (h : CodePoint.scalar '\x00' ∈ p.toText) : HasNul p := by
  by_contra hnul
  have hparts : ∀ part ∈ p.parts, ∀ c ∈ part, c ≠ .scalar '\x00' := by
    rintro part hpart c hc rfl
    exact hnul ⟨part, hpart, hc⟩
  exact (Path.forall_mem_toText_iff (by decide) (by decide)).2 hparts _ h rfl

theorem HasNul.of_parent {p : Path} (h : HasNul p.parent) : HasNul p := by
  obtain ⟨part, hpart, hmem⟩ := h
  exact ⟨part, List.dropLast_subset _ hpart, hmem⟩

theorem mem_append_part {isAbsolute : Bool} {kept : List Text} {part other : Text}
    (h : other ∈ Path.append isAbsolute kept part) : other ∈ kept ∨ other = part := by
  unfold Path.append at h
  split at h
  · simpa using h
  · split at h
    · split at h
      · cases h
      · exact .inr (List.mem_singleton.1 h)
    · split at h
      · simpa using h
      · exact .inl (List.dropLast_subset _ h)

theorem mem_foldl_append {isAbsolute : Bool} {parts kept : List Text} {other : Text}
    (h : other ∈ parts.foldl (Path.append isAbsolute) kept) : other ∈ kept ∨ other ∈ parts := by
  induction parts generalizing kept with
  | nil => exact .inl h
  | cons part parts ih =>
    rcases ih h with hkept | hparts
    · rcases mem_append_part hkept with hkept | rfl
      · exact .inl hkept
      · exact .inr List.mem_cons_self
    · exact .inr (List.mem_cons_of_mem _ hparts)

theorem HasNul.of_join {p q : Path} (h : HasNul (p.join q)) : HasNul p ∨ HasNul q := by
  obtain ⟨part, hpart, hmem⟩ := h
  unfold Path.join at hpart
  split at hpart
  · exact .inr ⟨part, hpart, hmem⟩
  · exact (List.mem_append.1 hpart).imp (⟨part, ·, hmem⟩) (⟨part, ·, hmem⟩)

theorem HasNul.of_absolute {fs : FileSystem} {p : Path} (h : HasNul (fs.absolute p)) :
    HasNul fs.workingPath ∨ HasNul p := by
  obtain ⟨part, hpart, hmem⟩ := h
  rcases mem_foldl_append hpart with hpart | hpart
  · cases hpart
  · exact HasNul.of_join ⟨part, hpart, hmem⟩

theorem mem_nameOf {count n : Nat} {c : CodePoint} (h : c ∈ nameOf count n) : c ∈ nameAlphabet := by
  induction count generalizing n with
  | zero => cases h
  | succ count ih =>
    rw [nameOf, List.mem_append, List.mem_singleton] at h
    rcases h with h | rfl
    · exact ih h
    · have hlt : n % nameAlphabet.length < nameAlphabet.length := Nat.mod_lt _ (by decide)
      rw [List.getD_eq_getElem?_getD, List.getElem?_eq_getElem hlt, Option.getD_some]
      exact List.getElem_mem hlt

theorem hasNul_of_mem_temporaryName {target : Path} {n : Nat}
    (h : CodePoint.scalar '\x00' ∈ temporaryName target n) : HasNul target := by
  simp only [temporaryName, List.mem_append] at h
  rcases h with (((h | h) | h) | h) | h
  · exact absurd h (by decide)
  · unfold Path.name at h
    cases hlast : target.parts.getLast? with
    | none =>
      rw [hlast] at h
      cases h
    | some part =>
      rw [hlast] at h
      exact ⟨part, List.mem_of_getLast? hlast, h⟩
  · exact absurd h (by decide)
  · exact absurd (mem_nameOf h) (by decide)
  · exact absurd h (by decide)

/-! ## Requests -/

theorem HasNul.of_checkText {p : Path} (h : checkText p.toText = .error .nulCharacter) : HasNul p := by
  simp only [checkText, bind_eq_error_iff, mapError_eq_error_iff] at h
  rcases h with ⟨cause, -, hcause⟩ | ⟨bytes, -, h⟩
  · cases hcause
  · split at h
    · next hnul => exact hasNul_of_mem_toText (List.contains_iff_mem.1 hnul)
    · cases h

theorem HasNul.of_locate {fs : FileSystem} {goal : Goal} {p : Path}
    (h : fs.locate goal p.toText = .error .nulCharacter) : HasNul p := by
  simp only [locate, bind_eq_error_iff, mapError_eq_error_iff] at h
  rcases h with h | ⟨_, -, fault, -, hfault⟩
  · exact .of_checkText h
  · cases hfault

theorem HasNul.of_makeDirectory {fs : FileSystem} {p : Path}
    (h : fs.makeDirectory p = .error .nulCharacter) : HasNul p := by
  simp only [makeDirectory, bind_eq_error_iff] at h
  rcases h with h | ⟨place, -, hplace⟩
  · exact .of_locate h
  · cases place <;> cases hplace

theorem isDirectory_ne_nulCharacter (fs : FileSystem) (p : Path) :
    fs.isDirectory p ≠ .error .nulCharacter := by
  unfold isDirectory node?
  split
  · intro h
    cases h
  · split <;> intro h <;> cases h
  · intro h
    cases h

theorem HasNul.of_ensureDirectory {fs : FileSystem} {p : Path}
    (h : (fs.ensureDirectory p).2 = .error .nulCharacter) : HasNul p := by
  unfold ensureDirectory at h
  split at h
  · cases h
  · cases h
  · split at h
    · cases h
    · cases h
    · next e hdirectory =>
      obtain rfl := Except.error.inj h
      exact absurd hdirectory (isDirectory_ne_nulCharacter fs p)
  · next e _ _ hmake =>
    obtain rfl := Except.error.inj h
    exact .of_makeDirectory hmake

theorem HasNul.of_ensureDirectories {fs : FileSystem} {p : Path}
    (h : (fs.ensureDirectories p).2 = .error .nulCharacter) : HasNul p := by
  fun_induction fs.ensureDirectories p with
  | case1 => cases h
  | case2 before part after paths hensure hroot above hparent ih => exact .of_ensureDirectory h
  | case3 before part after paths hensure hroot above cause hparent ih =>
    rw [hparent] at ih
    exact (ih h).of_parent
  | case4 before part hother => exact .of_ensureDirectory h

theorem HasNul.of_createTemporary {fs : FileSystem} {target : Path}
    (h : fs.createTemporary target = .error .nulCharacter) : HasNul fs.workingPath ∨ HasNul target := by
  unfold createTemporary at h
  generalize fs.entryCount (fs.absolute target.parent) + 1 = tries at h
  generalize 0 = n at h
  induction tries generalizing n with
  | zero => cases h
  | succ tries ih =>
    simp only [createFrom, bind_eq_error_iff] at h
    rcases h with h | ⟨place, -, h⟩
    · obtain ⟨part, hpart, hmem⟩ := HasNul.of_locate h
      rcases List.mem_append.1 hpart with hpart | hpart
      · rcases HasNul.of_absolute ⟨part, hpart, hmem⟩ with hnul | hnul
        · exact .inl hnul
        · exact .inr hnul.of_parent
      · rw [List.mem_singleton] at hpart
        exact .inr (hasNul_of_mem_temporaryName (hpart ▸ hmem))
    · cases place with
      | entry location node => exact ih _ h
      | free directory name => cases h

theorem HasNul.of_replace {fs : FileSystem} {p target : Path} (hchecked : checkText p.toText = .ok ())
    (h : fs.replace p target = .error .nulCharacter) : HasNul target := by
  simp only [FileSystem.replace, bind_eq_error_iff, mapError_eq_error_iff] at h
  rcases h with h | ⟨_, -, h | ⟨_, -, ⟨_, -, h⟩ | ⟨source, -, ⟨_, -, h⟩ | ⟨destination, -, h⟩⟩⟩⟩
  · cases hchecked.symm.trans h
  · exact .of_checkText h
  · cases h
  · cases h
  · split at h
    · cases h
    · split at h
      · cases h
      · cases h
      · split at h <;> cases h
      · cases h

end ModuleCatalog.FileSystem
