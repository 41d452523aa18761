import ModuleCatalog.Text.Basic

/-!
# Pieces of texts

The pieces of a text between the occurrences of a separator are the only ones that do not hold the separator and
make up the text when they are joined by it. The two parts of a text at the first separator are determined in the
same way.
-/

namespace ModuleCatalog.Text

variable {separator : CodePoint} {t : Text} {pieces : List Text}

theorem splitOn_eq (separator : CodePoint) (t : Text) : splitOn separator t = List.splitOn separator t := by
  induction t with
  | nil => rw [splitOn, List.splitOn_nil]
  | cons c t ih =>
    rw [splitOn, List.splitOn_cons_eq_if_modifyHead, ih]
    by_cases hc : c = separator
    · rw [if_pos hc, if_pos (beq_iff_eq.2 hc)]
    · rw [if_neg hc, if_neg (mt beq_iff_eq.1 hc)]
      cases hpieces : List.splitOn separator t with
      | nil => exact absurd hpieces (List.splitOn_ne_nil separator t)
      | cons piece pieces => rfl

theorem joinWith_eq (separator : Text) (pieces : List Text) :
    joinWith separator pieces = separator.intercalate pieces := by
  induction pieces with
  | nil => rfl
  | cons piece pieces ih =>
    cases pieces with
    | nil => simp [joinWith]
    | cons next pieces => simp [joinWith, ih]

theorem append_joinWith_cons (start separator piece : Text) (pieces : List Text) :
    start ++ joinWith separator (piece :: pieces) = joinWith separator ((start ++ piece) :: pieces) := by
  cases pieces with
  | nil => rfl
  | cons next pieces => simp only [joinWith, List.append_assoc]

theorem splitOn_of_not_mem (h : separator ∉ t) : splitOn separator t = [t] := by
  rw [splitOn_eq, List.splitOn_eq_singleton h]

/-- A separator ends one piece and begins another one. -/
theorem splitOn_append_cons (separator : CodePoint) (before after : Text) :
    splitOn separator (before ++ separator :: after) =
      splitOn separator before ++ splitOn separator after := by
  rw [splitOn_eq, splitOn_eq, splitOn_eq, List.splitOn_append_cons_self]

/-- No piece holds the separator. -/
theorem not_mem_of_mem_splitOn {piece : Text} (h : piece ∈ splitOn separator t) : separator ∉ piece := by
  fun_induction splitOn separator t generalizing piece with
  | case1 =>
    obtain rfl := List.mem_singleton.1 h
    exact List.not_mem_nil
  | case2 t ih =>
    rcases List.mem_cons.1 h with rfl | h
    · exact List.not_mem_nil
    · exact ih h
  | case3 c t hc hnil ih => exact absurd hnil (splitOn_ne_nil separator t)
  | case4 c t hc first rest hsplit ih =>
    rcases List.mem_cons.1 h with rfl | h
    · rw [List.mem_cons, not_or]
      exact ⟨Ne.symm hc, ih (hsplit ▸ List.mem_cons_self)⟩
    · exact ih (hsplit ▸ List.mem_cons_of_mem _ h)

/-- Whether a text consists of pieces with a separator between any two neighbours, and in none of them. -/
structure Separated (separator : CodePoint) (t : Text) (pieces : List Text) : Prop where
  ne_nil : pieces ≠ []
  lacks : ∀ piece ∈ pieces, separator ∉ piece
  joined : joinWith [separator] pieces = t

theorem separated_iff : Separated separator t pieces ↔ pieces = splitOn separator t := by
  constructor
  · rintro ⟨hne, hlacks, rfl⟩
    rw [joinWith_eq, splitOn_eq, List.splitOn_intercalate separator hlacks hne]
  · rintro rfl
    refine ⟨splitOn_ne_nil separator t, fun _ => not_mem_of_mem_splitOn, ?_⟩
    rw [joinWith_eq, splitOn_eq, List.intercalate_splitOn]

/-! ## The first separator -/

theorem splitFirst?_eq_none_iff : splitFirst? separator t = none ↔ separator ∉ t := by
  induction t with
  | nil => simp [splitFirst?]
  | cons c t ih =>
    rw [splitFirst?, List.mem_cons, not_or]
    by_cases hc : c = separator
    · simp [hc]
    · rw [if_neg hc, Option.map_eq_none_iff, ih]
      simp [Ne.symm hc]

theorem splitFirst?_eq_some_iff {before after : Text} :
    splitFirst? separator t = some (before, after) ↔ separator ∉ before ∧ t = before ++ separator :: after := by
  induction t generalizing before with
  | nil => simp [splitFirst?]
  | cons c t ih =>
    rw [splitFirst?]
    by_cases hc : c = separator
    · rw [if_pos hc, hc]
      constructor
      · rintro ⟨⟩
        exact ⟨List.not_mem_nil, rfl⟩
      · rintro ⟨hbefore, heq⟩
        cases before with
        | nil => rw [(List.cons.inj heq).2]
        | cons first before => exact absurd ((List.cons.inj heq).1 ▸ List.mem_cons_self) hbefore
    · rw [if_neg hc, Option.map_eq_some_iff]
      constructor
      · rintro ⟨⟨before', after'⟩, hsplit, heq⟩
        obtain ⟨rfl, rfl⟩ := Prod.mk.inj heq
        obtain ⟨hbefore, rfl⟩ := ih.1 hsplit
        rw [List.mem_cons, not_or]
        exact ⟨⟨Ne.symm hc, hbefore⟩, rfl⟩
      · rintro ⟨hbefore, heq⟩
        cases before with
        | nil => exact absurd (List.cons.inj heq).1 hc
        | cons first before =>
          obtain ⟨rfl, rfl⟩ := List.cons.inj heq
          exact ⟨(before, after), ih.2 ⟨fun hmem => hbefore (List.mem_cons_of_mem c hmem), rfl⟩, rfl⟩

end ModuleCatalog.Text
