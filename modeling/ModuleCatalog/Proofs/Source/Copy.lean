import ModuleCatalog.Proofs.Source.Soundness

/-!
# Copies of source texts

A copy of a text repeats it, but may have a return before any of its line feeds, and where the text ends with an
opening brace the copy may go on behind it. What is read at the front of a text is read at the front of its copy,
and what follows it there is a copy again. A search that fails in the text succeeds in a copy only if the copy
goes on and the text has come to its end. So a module that a text declares is declared by its copies.
-/

namespace ModuleCatalog.Source

open Text (dropLiteral?)

/-- Whether the second text is a copy of the first one. The parameter says whether a copy may go on behind a last
brace. -/
inductive Copy (goesOn : Prop) : Text → Text → Prop
  | nil : Copy goesOn [] []
  | brace (h : goesOn) (after : Text) : Copy goesOn [.scalar '{'] (.scalar '{' :: after)
  -- A return may be the first half of a line end, so what follows it may not change.
  | keep (c : CodePoint) {t u : Text} (hreturn : c = .scalar '\r' → u.head? = t.head?) (htail : Copy goesOn t u) :
    Copy goesOn (c :: t) (c :: u)
  | lineFeed {t u : Text} (htail : Copy goesOn t u) :
    Copy goesOn (.scalar '\n' :: t) (.scalar '\r' :: .scalar '\n' :: u)

/-- Whether the same part has been taken from a text and from its copy. -/
structure SameTaken (goesOn : Prop) (x y : Text × Text) : Prop where
  taken : y.1 = x.1
  rest : Copy goesOn x.2 y.2

/-- Whether a search in a copy has the result of the search in its text, or the text has none and the copy goes
on. -/
def Follows {α β : Type} (goesOn : Prop) (r : α → β → Prop) (x : Option α) (y : Option β) : Prop :=
  Option.Rel r x y ∨ goesOn ∧ x = none

/-! ## Results -/

section Results

variable {α β γ δ : Type} {r : α → β → Prop} {s : γ → δ → Prop} {x : Option α} {y : Option β}

theorem rel_cases (h : Option.Rel r x y) :
    (x = none ∧ y = none) ∨ ∃ a b, x = some a ∧ y = some b ∧ r a b := by
  cases h with
  | none => exact .inl ⟨rfl, rfl⟩
  | some hab => exact .inr ⟨_, _, rfl, rfl, hab⟩

theorem rel_bind {f : α → Option γ} {g : β → Option δ} (h : Option.Rel r x y)
    (hfg : ∀ a b, r a b → Option.Rel s (f a) (g b)) : Option.Rel s (x.bind f) (y.bind g) := by
  cases h with
  | none => exact .none
  | some hab => exact hfg _ _ hab

theorem rel_findSome? {ι : Type} {f : ι → Option α} {g : ι → Option β} {l : List ι}
    (h : ∀ i ∈ l, Option.Rel r (f i) (g i)) : Option.Rel r (l.findSome? f) (l.findSome? g) := by
  induction l with
  | nil => exact .none
  | cons i l ih =>
    obtain ⟨hi, hl⟩ := List.forall_mem_cons.1 h
    rw [List.findSome?_cons, List.findSome?_cons]
    rcases rel_cases hi with ⟨hf, hg⟩ | ⟨a, b, hf, hg, hab⟩
    · rw [hf, hg]
      exact ih hl
    · rw [hf, hg]
      exact .some hab

theorem rel_eq_iff {x y : Option α} : Option.Rel Eq x y ↔ x = y := by
  constructor
  · intro h
    cases h with
    | none => rfl
    | some hab => rw [hab]
  · rintro rfl
    cases x with
    | none => exact .none
    | some a => exact .some rfl

/-- What is tried first is tried alike. -/
theorem Follows.or {goesOn : Prop} {x' : Option α} {y' : Option β} (h : Option.Rel r x y)
    (h' : Follows goesOn r x' y') : Follows goesOn r (x.or x') (y.or y') := by
  cases h with
  | none => exact h'
  | some hab => exact .inl (.some hab)

end Results

variable {goesOn : Prop} {t u : Text}

/-! ## Literals and runs -/

/-- Whether a literal has neither a brace nor a character of a line end. -/
def IsPlainLiteral (l : Text) : Prop := ∀ c ∈ l, c ≠ .scalar '{' ∧ c ≠ .scalar '\n' ∧ c ≠ .scalar '\r'

instance (l : Text) : Decidable (IsPlainLiteral l) := inferInstanceAs (Decidable (∀ c ∈ l, _))

/-- Whether a class of characters has no brace, and both characters of a line end or none of them. -/
structure IsPlainClass (p : CodePoint → Bool) : Prop where
  brace : p (.scalar '{') = false
  lineEnd : p (.scalar '\r') = p (.scalar '\n')

theorem isPlainClass_isBlank : IsPlainClass CodePoint.isBlank := ⟨by decide, by decide⟩

theorem isPlainClass_isWord : IsPlainClass CodePoint.isWord := ⟨by decide, by decide⟩

theorem isPlainClass_isMarkerChar : IsPlainClass isMarkerChar := ⟨by decide, by decide⟩

namespace Copy

theorem dropLiteral? {l : Text} (hl : IsPlainLiteral l) (h : Copy goesOn t u) :
    Option.Rel (Copy goesOn) (dropLiteral? l t) (dropLiteral? l u) := by
  induction l generalizing t u with
  | nil => exact .some h
  | cons a l ih =>
    obtain ⟨⟨hbrace, hfeed, hreturn⟩, hl⟩ := List.forall_mem_cons.1 hl
    cases h with
    | nil => exact .none
    | brace =>
      rw [Text.dropLiteral?, Text.dropLiteral?, if_neg hbrace, if_neg hbrace]
      exact .none
    | keep c _ htail =>
      rw [Text.dropLiteral?, Text.dropLiteral?]
      split
      · exact ih hl htail
      · exact .none
    | lineFeed =>
      rw [Text.dropLiteral?, Text.dropLiteral?, if_neg hfeed, if_neg hreturn]
      exact .none

theorem startsWith {l : Text} (hl : IsPlainLiteral l) (h : Copy goesOn t u) :
    Text.startsWith u l = Text.startsWith t l := by
  rw [Text.startsWith, Text.startsWith]
  rcases rel_cases (h.dropLiteral? hl) with ⟨ht, hu⟩ | ⟨_, _, ht, hu, -⟩
  · rw [ht, hu]
  · rw [ht, hu]
    rfl

theorem dropWhile {p : CodePoint → Bool} (hp : IsPlainClass p) (h : Copy goesOn t u) :
    Copy goesOn (t.dropWhile p) (u.dropWhile p) := by
  induction h with
  | nil => exact .nil
  | brace hgoesOn after =>
    rw [List.dropWhile_cons, List.dropWhile_cons, hp.brace]
    exact .brace hgoesOn after
  | keep c hreturn htail ih =>
    rw [List.dropWhile_cons, List.dropWhile_cons]
    split
    · exact ih
    · exact .keep c hreturn htail
  | lineFeed htail ih =>
    rw [List.dropWhile_cons, List.dropWhile_cons, List.dropWhile_cons, hp.lineEnd]
    split
    · exact ih
    · exact .lineFeed htail

theorem takeWhile {p : CodePoint → Bool} (hp : IsPlainClass p) (hfeed : p (.scalar '\n') = false)
    (h : Copy goesOn t u) : u.takeWhile p = t.takeWhile p := by
  induction h with
  | nil => rfl
  | brace => simp only [List.takeWhile_cons, hp.brace, Bool.false_eq_true, if_false]
  | keep c _ _ ih => rw [List.takeWhile_cons, List.takeWhile_cons, ih]
  | lineFeed => simp only [List.takeWhile_cons, hp.lineEnd, hfeed, Bool.false_eq_true, if_false]

theorem takeWord (h : Copy goesOn t u) : u.takeWhile CodePoint.isWord = t.takeWhile CodePoint.isWord :=
  h.takeWhile isPlainClass_isWord (by decide)

theorem dropBlanks? (h : Copy goesOn t u) : Option.Rel (Copy goesOn) (dropBlanks? t) (dropBlanks? u) := by
  cases h with
  | nil => exact .none
  | brace => exact .none
  | keep c _ htail =>
    rw [Source.dropBlanks?, Source.dropBlanks?]
    split
    · exact .some (htail.dropWhile isPlainClass_isBlank)
    · exact .none
  | @lineFeed t u htail =>
    have htrim : Text.trimLeft (.scalar '\n' :: u) = Text.trimLeft u := List.dropWhile_cons_of_pos (by decide)
    rw [Source.dropBlanks?, Source.dropBlanks?, if_pos (by decide), if_pos (by decide), htrim]
    exact .some (htail.dropWhile isPlainClass_isBlank)

end Copy

/-! ## The namespace -/

theorem spanPath_of_head?_ne (h : t.head? ≠ some (.scalar '\\')) (fuel : Nat) : spanPath fuel t = ([], t) := by
  cases fuel with
  | zero => rfl
  | succ fuel =>
    rw [spanPath]
    rintro rest rfl
    exact h rfl

theorem spanPath_cons (fuel : Nat) (t : Text) :
    spanPath (fuel + 1) (.scalar '\\' :: t) =
      if t.takeWhile CodePoint.isWord = [] then ([], .scalar '\\' :: t)
      else (.scalar '\\' :: t.takeWhile CodePoint.isWord ++ (spanPath fuel (t.dropWhile CodePoint.isWord)).1,
        (spanPath fuel (t.dropWhile CodePoint.isWord)).2) := by
  cases hword : t.takeWhile CodePoint.isWord with
  | nil => simp only [spanPath, Text.spanWord, hword, if_true]
  | cons c word => simp only [spanPath, Text.spanWord, hword, List.cons_ne_nil, if_false]

theorem namespacePath?_eq (t : Text) :
    namespacePath? t =
      if t.takeWhile CodePoint.isWord = [] then none
      else some (t.takeWhile CodePoint.isWord ++
          (spanPath (t.dropWhile CodePoint.isWord).length (t.dropWhile CodePoint.isWord)).1,
        (spanPath (t.dropWhile CodePoint.isWord).length (t.dropWhile CodePoint.isWord)).2) := by
  cases hword : t.takeWhile CodePoint.isWord with
  | nil => simp only [namespacePath?, Text.spanWord, hword, if_true]
  | cons c word => simp only [namespacePath?, Text.spanWord, hword, List.cons_ne_nil, if_false]

namespace Copy

/-- A copy begins with a backslash if and only if its text does. -/
theorem backslash (h : Copy goesOn t u) :
    (t.head? ≠ some (.scalar '\\') ∧ u.head? ≠ some (.scalar '\\')) ∨
      ∃ t' u', t = .scalar '\\' :: t' ∧ u = .scalar '\\' :: u' ∧ Copy goesOn t' u' := by
  cases h with
  | nil => exact .inl (by decide)
  | brace =>
    have hhead : some (CodePoint.scalar '{') ≠ some (.scalar '\\') := by decide
    exact .inl ⟨hhead, hhead⟩
  | @keep c t u _ htail =>
    by_cases hc : c = .scalar '\\'
    · exact .inr ⟨t, u, by rw [hc], by rw [hc], htail⟩
    · have hhead : some c ≠ some (CodePoint.scalar '\\') := fun heq => hc (Option.some.inj heq)
      exact .inl ⟨hhead, hhead⟩
  | lineFeed =>
    have hfeed : some (CodePoint.scalar '\n') ≠ some (.scalar '\\') := by decide
    have hreturn : some (CodePoint.scalar '\r') ≠ some (.scalar '\\') := by decide
    exact .inl ⟨hfeed, hreturn⟩

theorem spanPath (h : Copy goesOn t u) {fuel fuel' : Nat} (hfuel : t.length ≤ fuel) (hfuel' : u.length ≤ fuel') :
    SameTaken goesOn (spanPath fuel t) (spanPath fuel' u) := by
  induction fuel generalizing t u fuel' with
  | zero =>
    obtain rfl := List.length_eq_zero_iff.1 (Nat.le_zero.1 hfuel)
    cases h
    rw [spanPath_of_head?_ne (by decide), spanPath_of_head?_ne (by decide)]
    exact ⟨rfl, .nil⟩
  | succ fuel ih =>
    rcases h.backslash with ⟨ht, hu⟩ | ⟨t, u, rfl, rfl, htail⟩
    · rw [spanPath_of_head?_ne ht, spanPath_of_head?_ne hu]
      exact ⟨rfl, h⟩
    · obtain ⟨fuel', rfl⟩ := Nat.exists_eq_succ_of_ne_zero (Nat.ne_of_gt (Nat.lt_of_lt_of_le (Nat.succ_pos _) hfuel'))
      rw [Nat.succ_eq_add_one, spanPath_cons, spanPath_cons, htail.takeWord]
      split
      · exact ⟨rfl, h⟩
      · have hrest : (t.dropWhile CodePoint.isWord).length ≤ fuel :=
          (List.dropWhile_sublist _).length_le.trans (Nat.le_of_succ_le_succ hfuel)
        have hrest' : (u.dropWhile CodePoint.isWord).length ≤ fuel' :=
          (List.dropWhile_sublist _).length_le.trans (Nat.le_of_succ_le_succ hfuel')
        have hmore := ih (htail.dropWhile isPlainClass_isWord) hrest hrest'
        exact ⟨by rw [hmore.taken], hmore.rest⟩

theorem namespacePath? (h : Copy goesOn t u) :
    Option.Rel (SameTaken goesOn) (namespacePath? t) (namespacePath? u) := by
  rw [namespacePath?_eq, namespacePath?_eq, h.takeWord]
  split
  · exact .none
  · have hpath := (h.dropWhile isPlainClass_isWord).spanPath (Nat.le_refl _) (Nat.le_refl _)
    exact .some ⟨by rw [hpath.taken], hpath.rest⟩

theorem namespaceAt? (h : Copy goesOn t u) :
    Option.Rel (SameTaken goesOn) (namespaceAt? t) (namespaceAt? u) := by
  apply rel_bind (h.dropLiteral? (by decide))
  intro t u h
  apply rel_bind h.dropBlanks?
  intro t u h
  apply rel_bind h.namespacePath?
  rintro ⟨path, t⟩ ⟨path', u⟩ ⟨htaken, h⟩
  apply rel_bind ((h.dropWhile isPlainClass_isBlank).dropLiteral? (by decide))
  intro t u h
  exact .some ⟨htaken, h⟩

end Copy

theorem namespaceFrom?_cons (afterWord : Bool) (c : CodePoint) (t : Text) :
    namespaceFrom? afterWord (c :: t) =
      (if afterWord then none else namespaceAt? (c :: t)).or (namespaceFrom? c.isWord t) := by
  rw [namespaceFrom?]
  cases (if afterWord then none else namespaceAt? (c :: t)) <;> rfl

theorem namespaceFrom?_cons_of_ne {c : CodePoint} (hc : .scalar 'n' ≠ c) (afterWord : Bool) (t : Text) :
    namespaceFrom? afterWord (c :: t) = namespaceFrom? c.isWord t := by
  have hkeyword : dropLiteral? "namespace" (c :: t) = none := Text.dropLiteral?_cons_of_ne hc _ t
  have hat : namespaceAt? (c :: t) = none := by
    rw [namespaceAt?, hkeyword]
    rfl
  rw [namespaceFrom?_cons, hat, ite_self, Option.none_or]

theorem Copy.namespaceFrom? (h : Copy goesOn t u) (afterWord : Bool) :
    Follows goesOn (SameTaken goesOn) (namespaceFrom? afterWord t) (namespaceFrom? afterWord u) := by
  induction h generalizing afterWord with
  | nil => exact .inl .none
  | brace hgoesOn after =>
    rw [namespaceFrom?_cons_of_ne (by decide)]
    exact .inr ⟨hgoesOn, rfl⟩
  | @keep c t u hreturn htail ih =>
    have hat : Option.Rel (SameTaken goesOn) (if afterWord then none else Source.namespaceAt? (c :: t))
        (if afterWord then none else Source.namespaceAt? (c :: u)) := by
      split
      · exact .none
      · exact (Copy.keep c hreturn htail).namespaceAt?
    rw [namespaceFrom?_cons, namespaceFrom?_cons]
    exact .or hat (ih c.isWord)
  | lineFeed htail ih =>
    rw [namespaceFrom?_cons_of_ne (by decide), namespaceFrom?_cons_of_ne (by decide),
      namespaceFrom?_cons_of_ne (by decide)]
    exact ih _

/-! ## Markers -/

theorem dropLineEnd?_cons_of_ne {c : CodePoint} (hfeed : c ≠ .scalar '\n')
    (hreturn : ¬ (c = .scalar '\r' ∧ t.head? = some (.scalar '\n'))) : dropLineEnd? (c :: t) = none := by
  unfold dropLineEnd?
  split
  · next heq => exact absurd (List.cons.inj heq).1 hfeed
  · next heq =>
    obtain ⟨rfl, rfl⟩ := List.cons.inj heq
    exact absurd ⟨rfl, rfl⟩ hreturn
  · rfl

/-- Whether no marker begins in a text. -/
def LacksMarker (t : Text) : Prop := ∀ v, v <:+ t → markerAt? v = none

namespace Copy

theorem dropLineEnd? (h : Copy goesOn t u) : Option.Rel (Copy goesOn) (dropLineEnd? t) (dropLineEnd? u) := by
  cases h with
  | nil => exact .none
  | brace => exact .none
  | @keep c t u hreturn htail =>
    by_cases hfeed : c = .scalar '\n'
    · rw [hfeed]
      exact .some htail
    · by_cases hline : c = .scalar '\r' ∧ t.head? = some (.scalar '\n')
      · obtain ⟨rfl, hhead⟩ := hline
        have hhead' := (hreturn rfl).trans hhead
        cases htail with
        | nil => cases hhead
        | brace => exact absurd hhead (by decide)
        | keep d _ hrest =>
          obtain rfl := Option.some.inj hhead
          exact .some hrest
        | lineFeed =>
          have hne : some (CodePoint.scalar '\r') ≠ some (.scalar '\n') := by decide
          exact absurd hhead' hne
      · have hline' : ¬ (c = .scalar '\r' ∧ u.head? = some (.scalar '\n')) :=
          fun h => hline ⟨h.1, (hreturn h.1).symm.trans h.2⟩
        rw [dropLineEnd?_cons_of_ne hfeed hline, dropLineEnd?_cons_of_ne hfeed hline']
        exact .none
  | lineFeed htail => exact .some htail

theorem markerAt? (h : Copy goesOn t u) : Option.Rel (SameTaken goesOn) (markerAt? t) (markerAt? u) := by
  apply rel_bind (h.dropLiteral? (by decide))
  intro t u h
  have htaken := h.takeWhile isPlainClass_isMarkerChar (by decide)
  have hend := (h.dropWhile isPlainClass_isMarkerChar).dropLineEnd?
  rw [htaken]
  cases t.takeWhile isMarkerChar with
  | nil => exact .none
  | cons c categories =>
    apply rel_bind hend
    intro t u h
    exact .some ⟨rfl, h⟩

end Copy

theorem markerAt?_cons_of_ne {c : CodePoint} (hc : .scalar '@' ≠ c) (t : Text) : markerAt? (c :: t) = none := by
  have hkeyword : dropLiteral? "@module " (c :: t) = none := Text.dropLiteral?_cons_of_ne hc _ t
  rw [markerAt?, hkeyword]
  rfl

namespace LacksMarker

theorem nil : LacksMarker [] := by
  intro v hv
  rw [List.suffix_nil.1 hv]
  rfl

theorem cons {c : CodePoint} (hat : Source.markerAt? (c :: t) = none) (h : LacksMarker t) : LacksMarker (c :: t) := by
  intro v hv
  rcases List.suffix_cons_iff.1 hv with rfl | hv
  · exact hat
  · exact h v hv

theorem append {l : Text} (hl : CodePoint.scalar '@' ∉ l) (h : LacksMarker t) : LacksMarker (l ++ t) := by
  induction l with
  | nil => exact h
  | cons c l ih =>
    rw [List.mem_cons, not_or] at hl
    exact .cons (markerAt?_cons_of_ne hl.1 (l ++ t)) (ih hl.2)

theorem of_suffix (h : LacksMarker t) (hu : u <:+ t) : LacksMarker u := fun v hv => h v (hv.trans hu)

theorem markerInComment? (h : LacksMarker t) : markerInComment? t = none := by
  induction t with
  | nil => rfl
  | cons c t ih =>
    have hat := h (c :: t) (List.suffix_refl _)
    have hrest := ih (h.of_suffix (List.suffix_cons c t))
    rw [Source.markerInComment?, hat, hrest]
    exact ite_self none

theorem nextMarker? (h : LacksMarker t) : nextMarker? t = none := by
  induction t with
  | nil => rfl
  | cons c t ih =>
    have hcomment : (dropLiteral? "/**" (c :: t)).bind Source.markerInComment? = none := by
      rw [Option.bind_eq_none_iff]
      intro rest hrest
      have hsuffix : rest <:+ c :: t := ⟨_, (Text.eq_append_of_dropLiteral? hrest).symm⟩
      exact (h.of_suffix hsuffix).markerInComment?
    rw [Source.nextMarker?, hcomment]
    exact ih (h.of_suffix (List.suffix_cons c t))

end LacksMarker

theorem markerInComment?_cons (c : CodePoint) (t : Text) :
    markerInComment? (c :: t) =
      (markerAt? (c :: t)).or (if Text.startsWith (c :: t) "*/" then none else markerInComment? t) := by
  rw [markerInComment?]
  cases markerAt? (c :: t) <;> rfl

theorem markerInComment?_cons_of_ne {c : CodePoint} (hc : .scalar '@' ≠ c) (hend : .scalar '*' ≠ c) (t : Text) :
    markerInComment? (c :: t) = markerInComment? t := by
  have hclosed : dropLiteral? "*/" (c :: t) = none := Text.dropLiteral?_cons_of_ne hend _ t
  rw [markerInComment?_cons, markerAt?_cons_of_ne hc, Text.startsWith, hclosed]
  rfl

theorem nextMarker?_cons (c : CodePoint) (t : Text) :
    nextMarker? (c :: t) = ((dropLiteral? "/**" (c :: t)).bind markerInComment?).or (nextMarker? t) := by
  rw [nextMarker?]
  cases (dropLiteral? "/**" (c :: t)).bind markerInComment? <;> rfl

theorem nextMarker?_cons_of_ne {c : CodePoint} (hc : .scalar '/' ≠ c) (t : Text) :
    nextMarker? (c :: t) = nextMarker? t := by
  have hopen : dropLiteral? "/**" (c :: t) = none := Text.dropLiteral?_cons_of_ne hc _ t
  rw [nextMarker?_cons, hopen, Option.bind_none, Option.none_or]

namespace Copy

/-- The searches for a marker in a comment agree, unless the text ends without one. -/
theorem markerInComment? (h : Copy goesOn t u) :
    Option.Rel (SameTaken goesOn) (markerInComment? t) (markerInComment? u) ∨ goesOn ∧ LacksMarker t := by
  induction h with
  | nil => exact .inl .none
  | brace hgoesOn after => exact .inr ⟨hgoesOn, .cons (markerAt?_cons_of_ne (by decide) []) .nil⟩
  | @keep c t u hreturn htail ih =>
    have hcopy := Copy.keep c hreturn htail
    rw [markerInComment?_cons, markerInComment?_cons, hcopy.startsWith (by decide)]
    rcases rel_cases hcopy.markerAt? with ⟨ht, hu⟩ | ⟨_, _, ht, hu, hsame⟩
    · rw [ht, hu, Option.none_or, Option.none_or]
      split
      · exact .inl .none
      · exact ih.imp_right fun ⟨hgoesOn, hlacks⟩ => ⟨hgoesOn, hlacks.cons ht⟩
    · rw [ht, hu]
      exact .inl (.some hsame)
  | lineFeed htail ih =>
    rw [markerInComment?_cons_of_ne (by decide) (by decide), markerInComment?_cons_of_ne (by decide) (by decide),
      markerInComment?_cons_of_ne (by decide) (by decide)]
    exact ih.imp_right fun ⟨hgoesOn, hlacks⟩ => ⟨hgoesOn, hlacks.cons (markerAt?_cons_of_ne (by decide) _)⟩

theorem nextMarker? (h : Copy goesOn t u) :
    Follows goesOn (SameTaken goesOn) (nextMarker? t) (nextMarker? u) := by
  induction h with
  | nil => exact .inl .none
  | brace hgoesOn after =>
    rw [nextMarker?_cons_of_ne (by decide)]
    exact .inr ⟨hgoesOn, rfl⟩
  | @keep c t u hreturn htail ih =>
    have hopen : Option.Rel (Copy goesOn) (Text.dropLiteral? "/**" (c :: t)) (Text.dropLiteral? "/**" (c :: u)) :=
      (Copy.keep c hreturn htail).dropLiteral? (by decide)
    rw [nextMarker?_cons c u]
    rcases rel_cases hopen with ⟨ht, hu⟩ | ⟨rest, rest', ht, hu, hrest⟩
    · rw [nextMarker?_cons, ht, hu]
      exact ih
    · rcases hrest.markerInComment? with hmarker | ⟨hgoesOn, hlacks⟩
      · rw [nextMarker?_cons, ht, hu]
        exact .or hmarker ih
      · -- A comment that never closes and has no marker hides none from a later search.
        have hlacks' : LacksMarker (c :: t) := by
          rw [Text.eq_append_of_dropLiteral? ht]
          exact hlacks.append (by decide)
        exact .inr ⟨hgoesOn, hlacks'.nextMarker?⟩
  | lineFeed htail ih =>
    rw [nextMarker?_cons_of_ne (by decide), nextMarker?_cons_of_ne (by decide), nextMarker?_cons_of_ne (by decide)]
    exact ih

end Copy

/-! ## Classes -/

theorem length_of_dropModifier? {rest : Text} (h : dropModifier? t = some rest) : rest.length < t.length := by
  obtain ⟨modifier, -, blanks, hblanks, rfl⟩ := dropModifier?_eq_some h
  have hpositive : 0 < blanks.length := List.length_pos_iff.2 hblanks.ne_nil
  rw [List.length_append, List.length_append]
  omega

theorem dropModifiers_of_none (h : dropModifier? t = none) (fuel : Nat) : dropModifiers fuel t = t := by
  cases fuel with
  | zero => rfl
  | succ fuel => rw [dropModifiers, h]

theorem isPlainLiteral_modifiers : ∀ modifier ∈ modifiers, IsPlainLiteral modifier := by decide

theorem afterComment?_cons (c : CodePoint) (t : Text) :
    afterComment? (c :: t) = (dropLiteral? "*/" (c :: t)).or (afterComment? t) := by
  rw [afterComment?]
  cases dropLiteral? "*/" (c :: t) <;> rfl

theorem afterComment?_cons_of_ne {c : CodePoint} (hc : .scalar '*' ≠ c) (t : Text) :
    afterComment? (c :: t) = afterComment? t := by
  have hend : dropLiteral? "*/" (c :: t) = none := Text.dropLiteral?_cons_of_ne hc _ t
  rw [afterComment?_cons, hend, Option.none_or]

namespace Copy

theorem dropModifier? (h : Copy goesOn t u) : Option.Rel (Copy goesOn) (dropModifier? t) (dropModifier? u) := by
  apply rel_findSome?
  intro modifier hmodifier
  apply rel_bind (h.dropLiteral? (isPlainLiteral_modifiers modifier hmodifier))
  intro t u h
  exact h.dropBlanks?

theorem dropModifiers (h : Copy goesOn t u) {fuel fuel' : Nat} (hfuel : t.length ≤ fuel) (hfuel' : u.length ≤ fuel') :
    Copy goesOn (dropModifiers fuel t) (dropModifiers fuel' u) := by
  induction fuel generalizing t u fuel' with
  | zero =>
    obtain rfl := List.length_eq_zero_iff.1 (Nat.le_zero.1 hfuel)
    cases h
    rw [dropModifiers_of_none rfl, dropModifiers_of_none rfl]
    exact .nil
  | succ fuel ih =>
    rcases rel_cases h.dropModifier? with ⟨ht, hu⟩ | ⟨rest, rest', ht, hu, hrest⟩
    · rw [dropModifiers_of_none ht, dropModifiers_of_none hu]
      exact h
    · have hlength := length_of_dropModifier? ht
      have hlength' := length_of_dropModifier? hu
      obtain ⟨fuel', rfl⟩ := Nat.exists_eq_succ_of_ne_zero (show fuel' ≠ 0 by omega)
      rw [Source.dropModifiers, ht, Source.dropModifiers, hu]
      exact ih hrest (by omega) (by omega)

theorem classAt? (h : Copy goesOn t u) : classAt? u = classAt? t := by
  symm
  apply rel_eq_iff.1
  have hindented : Copy goesOn (t.dropWhile fun c => c = .scalar ' ' ∨ c = .scalar '\t')
      (u.dropWhile fun c => c = .scalar ' ' ∨ c = .scalar '\t') := h.dropWhile ⟨by decide, by decide⟩
  have hmodifiers := hindented.dropModifiers (Nat.le_refl _) (Nat.le_refl _)
  apply rel_bind (hmodifiers.dropLiteral? (by decide))
  intro t u h
  apply rel_bind h.dropBlanks?
  intro t u h
  rw [Text.spanWord, Text.spanWord, h.takeWord]
  cases t.takeWhile CodePoint.isWord with
  | nil => exact .none
  | cons c name => exact .some rfl

theorem afterComment? (h : Copy goesOn t u) : Follows goesOn (Copy goesOn) (afterComment? t) (afterComment? u) := by
  induction h with
  | nil => exact .inl .none
  | brace hgoesOn after => exact .inr ⟨hgoesOn, rfl⟩
  | @keep c t u hreturn htail ih =>
    rw [afterComment?_cons, afterComment?_cons]
    exact .or ((Copy.keep c hreturn htail).dropLiteral? (by decide)) ih
  | lineFeed htail ih =>
    rw [afterComment?_cons_of_ne (by decide), afterComment?_cons_of_ne (by decide),
      afterComment?_cons_of_ne (by decide)]
    exact ih

theorem classOnLine? (h : Copy goesOn t u) : classOnLine? u = classOnLine? t := by
  induction h with
  | nil => rfl
  | brace => rw [Source.classOnLine?, Source.classOnLine?, if_pos rfl, if_pos rfl]
  | keep c _ htail ih => rw [Source.classOnLine?, Source.classOnLine?, htail.classAt?, ih]
  | @lineFeed t u htail ih =>
    rw [Source.classOnLine?, if_neg (by decide), if_neg (by decide), Source.classOnLine?, Source.classOnLine?,
      htail.classAt?, ih]

/-- The class of a comment is decided where the comment ends in the text. -/
theorem declaredClass? (h : Copy goesOn t u) :
    declaredClass? u = declaredClass? t ∨ goesOn ∧ Source.afterComment? t = none := by
  rcases h.afterComment? with hafter | hnone
  · refine .inl ?_
    rcases rel_cases hafter with ⟨ht, hu⟩ | ⟨rest, rest', ht, hu, hrest⟩
    · simp only [Source.declaredClass?, ht, hu]
    · simp only [Source.declaredClass?, ht, hu, Option.bind_eq_bind, Option.bind_some, hrest.classOnLine?,
        hrest.classAt?]
  · exact .inr hnone

end Copy

/-! ## Modules -/

theorem declaredClass?_of_afterComment?_eq_none (h : afterComment? t = none) : declaredClass? t = none := by
  rw [declaredClass?, h]
  rfl

theorem afterComment?_of_suffix (h : afterComment? t = none) (hu : u <:+ t) : afterComment? u = none := by
  obtain ⟨before, rfl⟩ := hu
  induction before with
  | nil => exact h
  | cons c before ih =>
    rw [List.cons_append, afterComment?_cons, Option.or_eq_none_iff] at h
    exact ih h.2

theorem firstModule?_cons (enclosing categories rest : Text) (found : List (Text × Text)) :
    firstModule? enclosing ((categories, rest) :: found) =
      ((declaredClass? rest).map fun typeName => ⟨enclosing, typeName, Category.parseAll categories⟩).or
        (firstModule? enclosing found) := by
  rw [firstModule?, List.findSome?_cons]
  dsimp only
  cases declaredClass? rest <;> rfl

/-- Where no comment ends there is no module. -/
theorem firstModule?_of_afterComment?_eq_none (enclosing : Text) (h : afterComment? t = none) :
    firstModule? enclosing (markers t) = none := by
  fun_induction markers t with
  | case1 => rfl
  | case2 t categories rest hmarker ih =>
    obtain ⟨d, before, -, ht⟩ := nextMarker?_eq_some hmarker
    have hrest := afterComment?_of_suffix h ⟨_, ht.symm⟩
    have hclass := declaredClass?_of_afterComment?_eq_none hrest
    rw [firstModule?_cons, hclass, Option.map_none, Option.none_or]
    exact ih hrest

namespace Copy

theorem firstModule? (h : Copy goesOn t u) (enclosing : Text) :
    Follows goesOn Eq (firstModule? enclosing (markers t)) (firstModule? enclosing (markers u)) := by
  fun_induction markers t generalizing u with
  | case1 t hnone =>
    rcases h.nextMarker? with hmarkers | ⟨hgoesOn, -⟩
    · rw [hnone] at hmarkers
      rcases rel_cases hmarkers with ⟨-, hu⟩ | ⟨_, _, ht, -⟩
      · rw [markers_of_none hu]
        exact .inl .none
      · cases ht
    · exact .inr ⟨hgoesOn, rfl⟩
  | case2 t categories rest hmarker ih =>
    rcases h.nextMarker? with hmarkers | ⟨-, hnone⟩
    · rw [hmarker] at hmarkers
      rcases rel_cases hmarkers with ⟨ht, -⟩ | ⟨_, ⟨categories', rest'⟩, ht, hu, hsame⟩
      · cases ht
      · obtain rfl := Option.some.inj ht
        obtain ⟨rfl, hrest⟩ := hsame
        rw [markers_of_some hu, firstModule?_cons]
        rcases hrest.declaredClass? with hclass | ⟨hgoesOn, hnone⟩
        · rw [firstModule?_cons, hclass]
          exact .or (rel_eq_iff.2 rfl) (ih hrest)
        · -- The comment does not end in the text, and neither does a later one.
          rw [declaredClass?_of_afterComment?_eq_none hnone, firstModule?_of_afterComment?_eq_none enclosing hnone]
          exact .inr ⟨hgoesOn, rfl⟩
    · cases hmarker.symm.trans hnone

/-- A copy declares the module of its text, and another one only if it goes on and the text declares none. -/
theorem declaredModule? (h : Copy goesOn t u) : Follows goesOn Eq (declaredModule? t) (declaredModule? u) := by
  rcases h.namespaceFrom? false with hspace | ⟨hgoesOn, hnone⟩
  · rcases rel_cases hspace with ⟨ht, hu⟩ | ⟨⟨enclosing, rest⟩, ⟨_, rest'⟩, ht, hu, ⟨rfl, hrest⟩⟩
    · rw [Source.declaredModule?, Source.declaredModule?, declaredNamespace?, declaredNamespace?, ht, hu]
      exact .inl .none
    · rw [Source.declaredModule?, Source.declaredModule?, declaredNamespace?, declaredNamespace?, ht, hu]
      exact hrest.firstModule? _
  · rw [Source.declaredModule?, declaredNamespace?, hnone]
    exact .inr ⟨hgoesOn, rfl⟩

end Copy

end ModuleCatalog.Source
