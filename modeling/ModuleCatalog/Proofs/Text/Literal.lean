import Mathlib.Data.List.DropRight
import Mathlib.Data.List.Infix
import ModuleCatalog.Text.Blank
import ModuleCatalog.Text.Word

/-!
# Literals, blanks and words in texts

A literal that does not stand in the first part of a text, and whose later characters are not the first one
of the second part, begins nowhere in the first part. No character is both blank and part of a word. Trimming
changes nothing in a text without blanks at its ends, such as a word or trimmed texts that have been joined.
-/

namespace ModuleCatalog

/-! ## Literals -/

namespace Text

variable {l before after t : Text}

theorem dropLiteral?_eq_none_iff : dropLiteral? l t = none ↔ ¬ l <+: t := by
  constructor
  · rintro hnone ⟨rest, rfl⟩
    rw [dropLiteral?_append] at hnone
    cases hnone
  · intro hfront
    cases hdrop : dropLiteral? l t with
    | none => rfl
    | some rest => exact absurd ⟨rest, (eq_append_of_dropLiteral? hdrop).symm⟩ hfront

/-- A literal that begins otherwise does not stand at the front of a text. -/
theorem dropLiteral?_cons_of_ne {a c : CodePoint} (h : a ≠ c) (l t : Text) : dropLiteral? (a :: l) (c :: t) = none := by
  rw [dropLiteral?, if_neg h]

theorem startsWith_iff : startsWith t l ↔ l <+: t := by
  rw [startsWith, Option.isSome_iff_ne_none, ne_eq, dropLiteral?_eq_none_iff, not_not]

/-- A literal that begins in the first part of a text and is not all in there goes on in the second one. -/
theorem not_prefix_append (hbefore : ¬ l <:+: before) (hafter : ∀ c ∈ l.tail, after.head? ≠ some c)
    (hne : before ≠ []) : ¬ l <+: before ++ after := by
  rintro ⟨rest, hrest⟩
  rcases List.append_eq_append_iff.1 hrest with ⟨part, rfl, -⟩ | ⟨part, hl, rfl⟩
  · exact hbefore (List.prefix_append l part).isInfix
  · cases part with
    | nil => exact hbefore (by rw [hl, List.append_nil])
    | cons c part =>
      obtain ⟨first, before, rfl⟩ := List.exists_cons_of_ne_nil hne
      refine hafter c ?_ rfl
      rw [hl]
      exact List.mem_append_right before List.mem_cons_self

theorem dropLiteral?_append_of_not_infix (hbefore : ¬ l <:+: before)
    (hafter : ∀ c ∈ l.tail, after.head? ≠ some c) (hne : before ≠ []) :
    dropLiteral? l (before ++ after) = none :=
  dropLiteral?_eq_none_iff.2 (not_prefix_append hbefore hafter hne)

/-- A literal does not begin in a part that lacks it and ends with none of its characters. -/
theorem not_prefix_append_of_getLast? {c : CodePoint} (hbefore : ¬ l <:+: before) (hlast : before.getLast? = some c)
    (hc : c ∉ l) : ¬ l <+: before ++ after := by
  rintro ⟨rest, hrest⟩
  rcases List.append_eq_append_iff.1 hrest with ⟨part, rfl, -⟩ | ⟨part, rfl, -⟩
  · exact hbefore (List.prefix_append l part).isInfix
  · exact hc (List.mem_append_left part (List.mem_of_getLast? hlast))

theorem not_infix_of_cons {c : CodePoint} (h : ¬ l <:+: c :: t) : ¬ l <:+: t :=
  fun hin => h (List.infix_cons hin)

/-- A literal stands in one of two parts if the character between them is none of its own. -/
theorem infix_append_cons {c : CodePoint} (hc : c ∉ l) (h : l <:+: before ++ c :: after) :
    l <:+: before ∨ l <:+: after := by
  rcases List.infix_append_iff.1 h with h | h | ⟨first, second, rfl, hfirst, hsecond⟩
  · exact .inl h
  · rcases List.infix_cons_iff.1 h with h | h
    · cases l with
      | nil => exact .inr (List.nil_infix)
      | cons a l => exact absurd ((List.cons_prefix_cons.1 h).1 ▸ List.mem_cons_self) hc
    · exact .inr h
  · cases second with
    | nil => exact .inl (by rw [List.append_nil]; exact hfirst.isInfix)
    | cons a second =>
      refine absurd ?_ hc
      rw [← (List.cons_prefix_cons.1 hsecond).1]
      exact List.mem_append_right first List.mem_cons_self

end Text

/-! ## Blanks and words -/

theorem RangeTable.exists_of_contains {table : RangeTable} {n : Nat} (h : table.contains n) :
    ∃ range ∈ table, range.1 ≤ n ∧ n ≤ range.2 := by
  induction table with
  | nil => cases h
  | cons range table ih =>
    rw [contains] at h
    split at h
    · cases h
    · next hlow =>
      split at h
      · next hhigh => exact ⟨range, List.mem_cons_self, Nat.not_lt.1 hlow, hhigh⟩
      · obtain ⟨other, hother, hbounds⟩ := ih h
        exact ⟨other, List.mem_cons_of_mem _ hother, hbounds⟩

namespace CodePoint

theorem blankRanges_disjoint_wordRanges :
    ∀ blank ∈ blankRanges, ∀ word ∈ wordRanges, blank.2 < word.1 ∨ word.2 < blank.1 := by
  decide +kernel

theorem isBlank_of_isWord {c : CodePoint} (h : c.isWord) : c.isBlank = false := by
  rw [Bool.eq_false_iff]
  intro hblank
  obtain ⟨word, hword, hword'⟩ := RangeTable.exists_of_contains h
  obtain ⟨blank, hmem, hblank'⟩ := RangeTable.exists_of_contains hblank
  have := blankRanges_disjoint_wordRanges blank hmem word hword
  omega

end CodePoint

namespace Text

/-- A non-empty run of word characters. -/
structure IsWordRun (t : Text) : Prop where
  ne_nil : t ≠ []
  isWord : ∀ c ∈ t, c.isWord

instance (t : Text) : Decidable t.IsWordRun :=
  decidable_of_iff (t ≠ [] ∧ ∀ c ∈ t, c.isWord) ⟨fun h => ⟨h.1, h.2⟩, fun h => ⟨h.1, h.2⟩⟩

theorem takeWhile_eq_nil {p : CodePoint → Bool} {t : Text} (h : ∀ c, t.head? = some c → p c = false) :
    t.takeWhile p = [] := by
  cases t with
  | nil => rfl
  | cons c t => rw [List.takeWhile_cons, h c rfl, if_neg Bool.false_ne_true]

theorem dropWhile_eq_self {p : CodePoint → Bool} {t : Text} (h : ∀ c, t.head? = some c → p c = false) :
    t.dropWhile p = t := by
  cases t with
  | nil => rfl
  | cons c t => rw [List.dropWhile_cons, h c rfl, if_neg Bool.false_ne_true]

theorem takeWhile_append {p : CodePoint → Bool} {run rest : Text} (hrun : ∀ c ∈ run, p c)
    (hrest : ∀ c, rest.head? = some c → p c = false) : (run ++ rest).takeWhile p = run := by
  rw [List.takeWhile_append_of_pos hrun, takeWhile_eq_nil hrest, List.append_nil]

theorem dropWhile_append {p : CodePoint → Bool} {run rest : Text} (hrun : ∀ c ∈ run, p c)
    (hrest : ∀ c, rest.head? = some c → p c = false) : (run ++ rest).dropWhile p = rest := by
  rw [List.dropWhile_append_of_pos hrun, dropWhile_eq_self hrest]

theorem spanWord_append {run rest : Text} (hrun : run.IsWordRun)
    (hrest : ∀ c, rest.head? = some c → c.isWord = false) : spanWord (run ++ rest) = (run, rest) := by
  rw [spanWord, takeWhile_append hrun.isWord hrest, dropWhile_append hrun.isWord hrest]

theorem dropWhile_append_cons {p : CodePoint → Bool} {c : CodePoint} (hc : p c = false) (s t : Text) :
    (s ++ c :: t).dropWhile p = s.dropWhile p ++ c :: t := by
  induction s with
  | nil => rw [List.nil_append, List.dropWhile_cons, hc, if_neg Bool.false_ne_true]; rfl
  | cons a s ih =>
    rw [List.cons_append, List.dropWhile_cons, List.dropWhile_cons]
    split
    · exact ih
    · rfl

theorem IsWordRun.exists_cons {t : Text} (h : t.IsWordRun) : ∃ c rest, t = c :: rest ∧ c.isWord := by
  obtain ⟨c, rest, rfl⟩ := List.exists_cons_of_ne_nil h.ne_nil
  exact ⟨c, rest, rfl, h.isWord c List.mem_cons_self⟩

theorem trimLeft_cons {c : CodePoint} (h : c.isBlank = false) (t : Text) : trimLeft (c :: t) = c :: t := by
  rw [trimLeft, List.dropWhile_cons, h, if_neg Bool.false_ne_true]

/-! ## Places -/

theorem getElem?_of_drop_eq_cons {c : CodePoint} {t rest : Text} {place : Nat} (h : t.drop place = c :: rest) :
    t[place]? = some c := by
  rw [← List.head?_drop, h, List.head?_cons]

theorem drop_succ_of_drop_eq_cons {c : CodePoint} {t rest : Text} {place : Nat} (h : t.drop place = c :: rest) :
    t.drop (place + 1) = rest := by
  rw [← List.tail_drop, h, List.tail_cons]

theorem drop_eq_cons {c : CodePoint} {t : Text} {place : Nat} (h : t[place]? = some c) :
    t.drop place = c :: t.drop (place + 1) := by
  rw [List.drop_eq_getElem?_toList_append, h, Option.toList_some, List.singleton_append]

/-! ## Trimming -/

theorem trimRight_eq (t : Text) : trimRight t = t.rdropWhile CodePoint.isBlank := rfl

theorem head?_trimLeft {t : Text} {c : CodePoint} (h : (trimLeft t).head? = some c) :
    c.isBlank = false := by
  induction t with
  | nil => cases h
  | cons a t ih =>
    rw [trimLeft, List.dropWhile_cons] at h
    split at h
    · exact ih h
    · next ha =>
      obtain rfl := Option.some.inj h
      exact Bool.eq_false_iff.2 ha

/-- What has been trimmed stays as it is. -/
theorem trim_trim (t : Text) : t.trim.trim = t.trim := by
  have hleft : trimLeft (trimRight (trimLeft t)) = trimRight (trimLeft t) := by
    apply dropWhile_eq_self
    intro c hc
    obtain ⟨rest, hrest⟩ := List.rdropWhile_prefix CodePoint.isBlank (trimLeft t)
    rw [trimRight_eq] at hc
    apply head?_trimLeft
    rw [← hrest, List.head?_append, hc, Option.some_or]
  rw [trim, trim, hleft, trimRight_eq, trimRight_eq, List.rdropWhile_idempotent]

theorem trim_eq_self_iff {t : Text} : t.trim = t ↔ t.IsTrimmed := by
  constructor
  · intro h
    have hright : t.trimLeft.trimRight <+: t.trimLeft := by
      rw [trimRight_eq]
      exact List.rdropWhile_prefix _ _
    have hleft : t.trimLeft <:+ t := List.dropWhile_suffix _
    have hlength : t.length ≤ t.trimLeft.length := by
      calc t.length = t.trim.length := by rw [h]
        _ ≤ t.trimLeft.length := hright.length_le
    have htrimLeft : t.trimLeft = t := hleft.eq_of_length_le hlength
    rw [trim, htrimLeft, trimRight_eq, List.rdropWhile_eq_self_iff] at h
    refine ⟨fun c hc => head?_trimLeft (htrimLeft.symm ▸ hc), fun c hc => Bool.eq_false_iff.2 ?_⟩
    obtain ⟨hne, rfl⟩ := List.mem_getLast?_eq_getLast hc
    exact h hne
  · rintro ⟨hhead, hlast⟩
    have hleft : t.trimLeft = t := dropWhile_eq_self hhead
    rw [trim, hleft, trimRight_eq, List.rdropWhile_eq_self_iff]
    intro hne
    rw [hlast _ (List.getLast?_eq_some_getLast hne)]
    exact Bool.false_ne_true

instance (t : Text) : Decidable t.IsTrimmed := decidable_of_iff _ trim_eq_self_iff

theorem IsWordRun.isTrimmed {t : Text} (h : t.IsWordRun) : t.IsTrimmed where
  left c hc := CodePoint.isBlank_of_isWord (h.isWord c (List.mem_of_head? hc))
  right c hc := CodePoint.isBlank_of_isWord (h.isWord c (List.mem_of_getLast? hc))

/-- Only the ends of a text have to be trimmed. -/
theorem IsTrimmed.append {s t : Text} (hs : s.IsTrimmed) (ht : t.IsTrimmed) (hsne : s ≠ []) (htne : t ≠ [])
    (inner : Text) : (s ++ inner ++ t).IsTrimmed := by
  constructor
  · intro c hc
    apply hs.1
    rwa [List.append_assoc, List.head?_append_of_ne_nil _ hsne] at hc
  · intro c hc
    apply ht.2
    rwa [List.getLast?_append_of_ne_nil _ htne] at hc

/-! ## Joined pieces -/

theorem mem_joinWith {c : CodePoint} {separator : Text} {pieces : List Text}
    (h : c ∈ joinWith separator pieces) : c ∈ separator ∨ ∃ piece ∈ pieces, c ∈ piece := by
  induction pieces with
  | nil => cases h
  | cons piece pieces ih =>
    cases pieces with
    | nil => exact .inr ⟨piece, List.mem_cons_self, h⟩
    | cons next pieces =>
      rw [joinWith, List.mem_append, List.mem_append] at h
      · rcases h with (h | h) | h
        · exact .inr ⟨piece, List.mem_cons_self, h⟩
        · exact .inl h
        · rcases ih h with h | ⟨other, hother, h⟩
          · exact .inl h
          · exact .inr ⟨other, List.mem_cons_of_mem _ hother, h⟩
      · simp

theorem joinWith_concat_of_ne_nil (separator : Text) {pieces : List Text} (h : pieces ≠ []) (last : Text) :
    joinWith separator (pieces ++ [last]) = joinWith separator pieces ++ separator ++ last := by
  induction pieces with
  | nil => exact absurd rfl h
  | cons piece pieces ih =>
    cases pieces with
    | nil => rfl
    | cons next pieces =>
      have hrest := ih (List.cons_ne_nil next pieces)
      calc joinWith separator (piece :: next :: pieces ++ [last])
          = piece ++ separator ++ joinWith separator (next :: pieces ++ [last]) := rfl
        _ = piece ++ separator ++ (joinWith separator (next :: pieces) ++ separator ++ last) := by
          rw [hrest]
        _ = joinWith separator (piece :: next :: pieces) ++ separator ++ last := by
          simp only [joinWith, List.append_assoc]

theorem joinWith_ne_nil {separator : Text} {pieces : List Text} (hne : pieces ≠ [])
    (h : ∀ piece ∈ pieces, piece ≠ []) : joinWith separator pieces ≠ [] := by
  fun_cases joinWith separator pieces with
  | case1 => exact absurd rfl hne
  | case2 piece => exact h piece List.mem_cons_self
  | case3 piece pieces hpieces =>
    apply List.append_ne_nil_of_left_ne_nil
    apply List.append_ne_nil_of_left_ne_nil
    exact h piece List.mem_cons_self

theorem isTrimmed_joinWith {separator : Text} {pieces : List Text} (hne : ∀ piece ∈ pieces, piece ≠ [])
    (h : ∀ piece ∈ pieces, piece.IsTrimmed) : (joinWith separator pieces).IsTrimmed := by
  fun_induction joinWith separator pieces with
  | case1 => exact trim_eq_self_iff.1 rfl
  | case2 piece => exact h piece List.mem_cons_self
  | case3 piece pieces hpieces ih =>
    obtain ⟨hpiece, hrest⟩ := List.forall_mem_cons.1 hne
    obtain ⟨hpiece', hrest'⟩ := List.forall_mem_cons.1 h
    exact hpiece'.append (ih hrest hrest') hpiece (joinWith_ne_nil hpieces hrest) separator

end Text

end ModuleCatalog
