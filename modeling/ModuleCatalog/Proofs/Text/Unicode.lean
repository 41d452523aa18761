import ModuleCatalog.FileSystem.Path
import ModuleCatalog.Proofs.Text.Literal
import ModuleCatalog.Text.Quoted

/-!
# Texts without surrogates

Strings of characters, texts put together from such texts, and their quoted forms hold no surrogate. A path is
written without one exactly if none of its parts holds one.
-/

namespace ModuleCatalog

namespace Text

variable {s t : Text}

theorem isUnicode_iff : t.isUnicode ↔ ∀ c ∈ t, c.isSurrogate = false := by
  simp [isUnicode]

theorem isUnicode_append_iff : (s ++ t).isUnicode ↔ s.isUnicode ∧ t.isUnicode := by
  simp [isUnicode]

theorem isUnicode_map_scalar (cs : List Char) : isUnicode (cs.map .scalar) := by
  rw [isUnicode_iff, List.forall_mem_map]
  exact fun _ _ => rfl

theorem isUnicode_ofString (s : String) : (ofString s).isUnicode := isUnicode_map_scalar s.toList

/-! ## Joined pieces -/

theorem joinWith_cons_cons (separator piece next : Text) (pieces : List Text) :
    joinWith separator (piece :: next :: pieces) = piece ++ separator ++ joinWith separator (next :: pieces) := rfl

theorem subset_joinWith {separator piece : Text} {pieces : List Text} (h : piece ∈ pieces) :
    piece ⊆ joinWith separator pieces := by
  induction pieces with
  | nil => cases h
  | cons first pieces ih =>
    cases pieces with
    | nil =>
      rw [List.mem_singleton.1 h]
      exact List.Subset.refl _
    | cons next pieces =>
      rw [joinWith_cons_cons]
      rcases List.mem_cons.1 h with rfl | h
      · rw [List.append_assoc]
        exact List.subset_append_left ..
      · exact List.subset_append_of_subset_right _ (ih h)

theorem forall_mem_joinWith_iff {P : CodePoint → Prop} {separator : Text} (hseparator : ∀ c ∈ separator, P c)
    {pieces : List Text} : (∀ c ∈ joinWith separator pieces, P c) ↔ ∀ piece ∈ pieces, ∀ c ∈ piece, P c := by
  induction pieces with
  | nil => exact iff_of_true (List.forall_mem_nil _) (List.forall_mem_nil _)
  | cons piece pieces ih =>
    cases pieces with
    | nil => rw [joinWith, List.forall_mem_singleton]
    | cons next pieces =>
      rw [joinWith_cons_cons, List.forall_mem_append, List.forall_mem_append, ih, and_iff_left hseparator]
      simp only [List.forall_mem_cons]

/-! ## Quoted texts -/

end Text

namespace Path

variable {p q : Path}

/-- The characters of a path are those of its parts, slashes and perhaps a dot. -/
theorem forall_mem_toText_iff {P : CodePoint → Prop} (hslash : P (.scalar '/')) (hdot : P (.scalar '.')) :
    (∀ c ∈ p.toText, P c) ↔ ∀ part ∈ p.parts, ∀ c ∈ part, P c := by
  have hroot : ∀ c ∈ PathRoot.text p.root, P c := by
    cases p.root with
    | relative => exact List.forall_mem_nil _
    | slash => exact List.forall_mem_singleton.2 hslash
    | doubleSlash => exact List.forall_mem_cons.2 ⟨hslash, List.forall_mem_singleton.2 hslash⟩
  unfold toText
  split
  · next hempty =>
    rw [hempty.2]
    exact iff_of_true (List.forall_mem_singleton.2 hdot) (List.forall_mem_nil _)
  · rw [List.forall_mem_append, and_iff_right hroot]
    exact Text.forall_mem_joinWith_iff (List.forall_mem_singleton.2 hslash)

end Path

end ModuleCatalog
