import ModuleCatalog.Proofs.Source.Characters
import ModuleCatalog.Proofs.Source.Declaration
import ModuleCatalog.Proofs.Source.Scan
import ModuleCatalog.Proofs.Text.Pieces

/-!
# What a declared module stands for

A text that declares a module holds, one behind the other, the first namespace declaration in it, a marker in
a doc comment that has not been closed before, and a class that follows the end of that comment with no
opening brace in between. The module is made of what these three say. So none of its texts has a blank or a
surrogate, and its qualified name tells the namespace from the class.
-/

namespace ModuleCatalog

/-! ## Ends of texts -/

namespace Text

variable {s t : Text}

/-- Whether a text is empty or ends with a blank. -/
def EndsBlank (t : Text) : Prop := ∀ c, t.getLast? = some c → c.isBlank

theorem EndsBlank.append (hs : s.EndsBlank) (ht : t.EndsBlank) : (s ++ t).EndsBlank := by
  intro c hc
  rw [List.getLast?_append] at hc
  cases hlast : t.getLast? with
  | none => exact hs c (by rwa [hlast, Option.none_or] at hc)
  | some d => exact ht c (by rw [hlast, Option.some_or] at hc; rwa [hlast])

theorem EndsBlank.of_forall_mem (h : ∀ c ∈ t, c.isBlank) : t.EndsBlank :=
  fun c hc => h c (List.mem_of_getLast? hc)

end Text

theorem CodePoint.wordRanges_disjoint_surrogates :
    ∀ word ∈ CodePoint.wordRanges, word.2 < 0xD800 ∨ 0xDFFF < word.1 := by decide +kernel

/-- What stands before the last occurrence of a character is determined by the text. -/
theorem Text.append_cons_inj_of_not_mem {c : CodePoint} {before before' after after' : Text}
    (hafter : c ∉ after) (hafter' : c ∉ after') (h : before ++ c :: after = before' ++ c :: after') :
    before = before' ∧ after = after' := by
  rcases List.append_eq_append_iff.1 h with ⟨part, hbefore, htail⟩ | ⟨part, hbefore, htail⟩
  · cases part with
    | nil => exact ⟨by rw [hbefore, List.append_nil], (List.cons.inj htail).2⟩
    | cons d part =>
      refine absurd ?_ hafter
      rw [(List.cons.inj htail).2]
      exact List.mem_append_right part List.mem_cons_self
  · cases part with
    | nil => exact ⟨by rw [hbefore, List.append_nil], (List.cons.inj htail).2.symm⟩
    | cons d part =>
      refine absurd ?_ hafter'
      rw [(List.cons.inj htail).2]
      exact List.mem_append_right part List.mem_cons_self

namespace Source

open Text (IsWordRun EndsBlank dropLiteral?)

/-! ## Namespace declarations -/

/-- The parts of a namespace declaration: the word `namespace`, blanks, words joined by single backslashes,
perhaps blanks, and a semicolon. -/
structure NamespaceDeclaration where
  separation : Text
  words : List Text
  padding : Text
  separation_ne_nil : separation ≠ []
  separation_blank : ∀ c ∈ separation, c.isBlank
  words_ne_nil : words ≠ []
  words_run : ∀ word ∈ words, word.IsWordRun
  padding_blank : ∀ c ∈ padding, c.isBlank

namespace NamespaceDeclaration

variable (d : NamespaceDeclaration)

def path : Text := Text.joinWith "\\" d.words

def text : Text := "namespace" ++ d.separation ++ d.path ++ d.padding ++ ";"

/-- Whether the declaration stands in a text between two parts of it, and not at the end of a longer word. -/
def StandsIn (t before rest : Text) : Prop :=
  t = before ++ d.text ++ rest ∧ ∀ c, before.getLast? = some c → c.isWord = false

end NamespaceDeclaration

section Namespaces

variable {t path rest : Text}

theorem spanPath_eq {fuel : Nat} (h : spanPath fuel t = (path, rest)) :
    ∃ words : List Text, (∀ word ∈ words, word.IsWordRun) ∧
      path = words.flatMap (Text.ofString "\\" ++ ·) ∧ t = path ++ rest := by
  fun_induction spanPath fuel t generalizing path rest with
  | case3 fuel first word after hne hspan more last hmore ih =>
    obtain ⟨rfl, rfl⟩ := Prod.mk.inj h
    obtain ⟨words, hwords, rfl, rfl⟩ := ih hmore
    obtain ⟨rfl, hchars, -⟩ := spanWord_eq hspan
    have hword : word.IsWordRun := ⟨hne, hchars⟩
    refine ⟨word :: words, List.forall_mem_cons.2 ⟨hword, hwords⟩, ?_, ?_⟩
    · rfl
    · simp only [List.cons_append, List.append_assoc]
  | _ =>
    obtain ⟨rfl, rfl⟩ := Prod.mk.inj h
    exact ⟨[], List.forall_mem_nil _, rfl, rfl⟩

theorem namespacePath?_eq_some (h : namespacePath? t = some (path, rest)) :
    ∃ words : List Text, words ≠ [] ∧ (∀ word ∈ words, word.IsWordRun) ∧
      path = Text.joinWith "\\" words ∧ t = path ++ rest := by
  unfold namespacePath? at h
  split at h
  · cases h
  · next word after hne hspan =>
    obtain ⟨rfl, rfl⟩ := Prod.mk.inj (Option.some.inj h)
    obtain ⟨words, hwords, hpath, hafter⟩ := spanPath_eq (rfl : spanPath after.length after = _)
    obtain ⟨ht, hchars, -⟩ := spanWord_eq hspan
    have hword : word.IsWordRun := ⟨hne, hchars⟩
    refine ⟨word :: words, List.cons_ne_nil _ _, List.forall_mem_cons.2 ⟨hword, hwords⟩, ?_, ?_⟩
    · rw [joinWith_cons, hpath]
    · rw [ht, List.append_assoc, ← hafter]

theorem NamespaceDeclaration.isBlank_of_head?_path (d : NamespaceDeclaration) (after : Text) :
    ∀ c, (d.path ++ after).head? = some c → c.isBlank = false := by
  intro c hc
  obtain ⟨word, words, hwords⟩ := List.exists_cons_of_ne_nil d.words_ne_nil
  obtain ⟨first, tail, rfl, hfirst⟩ := (d.words_run word (hwords ▸ List.mem_cons_self)).exists_cons
  rw [path, hwords, joinWith_cons] at hc
  obtain rfl := Option.some.inj hc
  exact CodePoint.isBlank_of_isWord hfirst

/-- Neither blanks nor a semicolon go on with a path. -/
theorem NamespaceDeclaration.endsPath_padding (d : NamespaceDeclaration) (rest : Text) :
    EndsPath (d.padding ++ (";" ++ rest)) := by
  intro c hc
  have hcase : c.isBlank ∨ c = .scalar ';' := by
    rw [List.head?_append] at hc
    cases hpadding : d.padding.head? with
    | none => exact .inr (by simpa [hpadding, Text.ofString] using hc.symm)
    | some first =>
      obtain rfl : first = c := by simpa [hpadding] using hc
      exact .inl (d.padding_blank first (List.mem_of_head? hpadding))
  rcases hcase with hblank | rfl
  · constructor
    · refine Bool.eq_false_iff.2 fun hword => ?_
      rw [CodePoint.isBlank_of_isWord hword] at hblank
      cases hblank
    · rintro rfl
      exact absurd hblank (by decide)
  · decide

theorem NamespaceDeclaration.namespaceAt?_text (d : NamespaceDeclaration) (rest : Text) :
    namespaceAt? (d.text ++ rest) = some (d.path, rest) := by
  have hblanks := dropBlanks?_append ⟨d.separation_ne_nil, d.separation_blank⟩
    (d.isBlank_of_head?_path (d.padding ++ (";" ++ rest)))
  have hpath : namespacePath? (d.path ++ (d.padding ++ (";" ++ rest))) = some (d.path, d.padding ++ (";" ++ rest)) :=
    namespacePath?_append d.words_ne_nil d.words_run (d.endsPath_padding rest)
  have hpadding : Text.trimLeft (d.padding ++ (";" ++ rest)) = ";" ++ rest := by
    apply Text.dropWhile_append d.padding_blank
    intro c hc
    obtain rfl := Option.some.inj hc
    decide
  have hsplit : d.text ++ rest = Text.ofString "namespace" ++
      (d.separation ++ (d.path ++ (d.padding ++ (";" ++ rest)))) := by
    simp only [text, List.append_assoc]
  rw [hsplit, namespaceAt?, Text.dropLiteral?_append]
  simp only [Option.bind_eq_bind, Option.bind_some, hblanks, hpath, hpadding, Text.dropLiteral?_append]

theorem namespaceAt?_eq_some_iff :
    namespaceAt? t = some (path, rest) ↔ ∃ d : NamespaceDeclaration, d.path = path ∧ t = d.text ++ rest := by
  constructor
  · intro h
    simp only [namespaceAt?, Option.bind_eq_bind, Option.bind_eq_some_iff] at h
    obtain ⟨behind, hbehind, inner, hinner, ⟨found, after⟩, hpath, last, hlast, heq⟩ := h
    obtain ⟨rfl, rfl⟩ := Prod.mk.inj (Option.some.inj heq)
    obtain ⟨blanks, rfl, hne, hblanks⟩ := dropBlanks?_eq_some hinner
    obtain ⟨words, hwords, hruns, rfl, rfl⟩ := namespacePath?_eq_some hpath
    have hafter : after.takeWhile CodePoint.isBlank ++ (";" ++ last) = after := by
      rw [← Text.eq_append_of_dropLiteral? hlast, Text.trimLeft, List.takeWhile_append_dropWhile]
    refine ⟨⟨blanks, words, after.takeWhile CodePoint.isBlank, hne, hblanks, hwords, hruns,
      fun c hc => List.mem_takeWhile_imp hc⟩, rfl, ?_⟩
    rw [Text.eq_append_of_dropLiteral? hbehind]
    simp only [NamespaceDeclaration.text, NamespaceDeclaration.path, List.append_assoc, hafter]
  · rintro ⟨d, rfl, rfl⟩
    exact d.namespaceAt?_text rest

/-- Whether a word character stands right before a place of a text; the flag answers for its beginning. -/
def afterWordAt (afterWord : Bool) (before : Text) : Bool :=
  match before.getLast? with
  | none => afterWord
  | some c => c.isWord

theorem afterWordAt_cons (afterWord : Bool) (c : CodePoint) (before : Text) :
    afterWordAt afterWord (c :: before) = afterWordAt c.isWord before := by
  cases hlast : before.getLast? with
  | none => simp [afterWordAt, List.getLast?_cons, hlast]
  | some d => simp [afterWordAt, List.getLast?_cons, hlast]

theorem afterWordAt_eq_false_iff {before : Text} :
    afterWordAt false before = false ↔ ∀ c, before.getLast? = some c → c.isWord = false := by
  cases hlast : before.getLast? with
  | none => simp [afterWordAt, hlast]
  | some c => simp [afterWordAt, hlast]

/-- What is found is a declaration, and no other one begins before it. -/
theorem namespaceFrom?_eq_some {afterWord : Bool} (h : namespaceFrom? afterWord t = some (path, rest)) :
    ∃ (d : NamespaceDeclaration) (before : Text), d.path = path ∧ t = before ++ d.text ++ rest ∧
      afterWordAt afterWord before = false ∧
      ∀ (other : NamespaceDeclaration) (before' rest' : Text), t = before' ++ other.text ++ rest' →
        afterWordAt afterWord before' = false → before.length ≤ before'.length := by
  induction t generalizing afterWord with
  | nil => cases h
  | cons c t ih =>
    rw [namespaceFrom?] at h
    split at h
    · next found hfound =>
      obtain rfl := Option.some.inj h
      cases afterWord with
      | true => cases hfound
      | false =>
        obtain ⟨d, hpath, ht⟩ := namespaceAt?_eq_some_iff.1 hfound
        exact ⟨d, [], hpath, ht, rfl, fun _ _ _ _ _ => Nat.zero_le _⟩
    · next hnone =>
      obtain ⟨d, before, hpath, rfl, hbefore, hfirst⟩ := ih h
      refine ⟨d, c :: before, hpath, rfl, by rwa [afterWordAt_cons], ?_⟩
      intro other before' rest' ht hbefore'
      cases before' with
      | nil =>
        obtain rfl : afterWord = false := hbefore'
        have hat := namespaceAt?_eq_some_iff.2 ⟨other, rfl, ht⟩
        rw [if_neg Bool.false_ne_true, hat] at hnone
        cases hnone
      | cons c' before' =>
        obtain ⟨rfl, ht'⟩ := List.cons.inj ht
        rw [afterWordAt_cons] at hbefore'
        exact Nat.succ_le_succ (hfirst other before' rest' ht' hbefore')

/-- The namespace of a text is that of the first declaration in it. -/
theorem exists_first_of_declaredNamespace? (h : declaredNamespace? t = some (path, rest)) :
    ∃ (d : NamespaceDeclaration) (before : Text), d.path = path ∧ d.StandsIn t before rest ∧
      ∀ (other : NamespaceDeclaration) (before' rest' : Text), other.StandsIn t before' rest' →
        before.length ≤ before'.length := by
  obtain ⟨d, before, hpath, ht, hbefore, hfirst⟩ := namespaceFrom?_eq_some h
  exact ⟨d, before, hpath, ⟨ht, afterWordAt_eq_false_iff.1 hbefore⟩, fun other before' rest' hother =>
    hfirst other before' rest' hother.1 (afterWordAt_eq_false_iff.2 hother.2)⟩

end Namespaces

/-! ## Markers -/

/-- The parts of a doc comment up to the line end behind its marker. -/
structure MarkedComment where
  /-- What stands in the comment before the marker. -/
  description : Text
  categories : Text
  lineEnd : Text
  description_lacks : ¬ Text.ofString "*/" <:+: description
  categories_ne_nil : categories ≠ []
  categories_chars : ∀ c ∈ categories, isMarkerChar c
  lineEnd_eq : lineEnd = "\n" ∨ lineEnd = "\r\n"

def MarkedComment.text (d : MarkedComment) : Text :=
  "/**" ++ d.description ++ "@module " ++ d.categories ++ d.lineEnd

section Markers

variable {t categories rest : Text}

theorem markerAt?_eq_some (h : markerAt? t = some (categories, rest)) :
    ∃ lineEnd : Text, (lineEnd = "\n" ∨ lineEnd = "\r\n") ∧ categories ≠ [] ∧
      t = "@module " ++ categories ++ lineEnd ++ rest := by
  simp only [markerAt?, Option.bind_eq_bind, Option.bind_eq_some_iff] at h
  obtain ⟨body, hbody, h⟩ := h
  split at h
  · cases h
  · next hne =>
    obtain ⟨after, hafter, heq⟩ := Option.bind_eq_some_iff.1 h
    obtain ⟨rfl, rfl⟩ := Prod.mk.inj (Option.some.inj heq)
    obtain ⟨lineEnd, hend, hline⟩ := dropLineEnd?_eq_some_iff.1 hafter
    refine ⟨lineEnd, hend, hne, ?_⟩
    rw [Text.eq_append_of_dropLiteral? hbody, List.append_assoc, List.append_assoc, ← hline,
      List.takeWhile_append_dropWhile]

/-- A literal that does not begin a text and is not in the rest of it is not in it. -/
theorem not_infix_cons {l : Text} {c : CodePoint} (hfront : ¬ l <+: c :: t) (hrest : ¬ l <:+: t) :
    ¬ l <:+: c :: t := by
  rw [List.infix_cons_iff, not_or]
  exact ⟨hfront, hrest⟩

theorem markerInComment?_eq_some (h : markerInComment? t = some (categories, rest)) :
    ∃ description lineEnd : Text, ¬ Text.ofString "*/" <:+: description ∧
      (lineEnd = "\n" ∨ lineEnd = "\r\n") ∧ categories ≠ [] ∧
      t = description ++ ("@module " ++ categories ++ lineEnd ++ rest) := by
  induction t with
  | nil => cases h
  | cons c t ih =>
    rw [markerInComment?] at h
    split at h
    · next marker hmarker =>
      obtain rfl := Option.some.inj h
      obtain ⟨lineEnd, hend, hne, ht⟩ := markerAt?_eq_some hmarker
      exact ⟨[], lineEnd, by decide, hend, hne, ht⟩
    · split at h
      · cases h
      · next hcloses =>
        obtain ⟨description, lineEnd, hlacks, hend, hne, rfl⟩ := ih h
        refine ⟨c :: description, lineEnd, not_infix_cons (fun hfront => ?_) hlacks, hend, hne, rfl⟩
        rw [Text.startsWith_iff] at hcloses
        exact hcloses (hfront.trans (List.prefix_append (c :: description) _))

theorem nextMarker?_eq_some (h : nextMarker? t = some (categories, rest)) :
    ∃ (d : MarkedComment) (before : Text), d.categories = categories ∧ t = before ++ d.text ++ rest := by
  induction t with
  | nil => cases h
  | cons c t ih =>
    have hchars := isMarkerChar_of_nextMarker? h
    rw [nextMarker?] at h
    split at h
    · next marker hmarker =>
      obtain rfl := Option.some.inj h
      obtain ⟨comment, hcomment, hin⟩ := Option.bind_eq_some_iff.1 hmarker
      obtain ⟨description, lineEnd, hlacks, hend, hne, rfl⟩ := markerInComment?_eq_some hin
      refine ⟨⟨description, categories, lineEnd, hlacks, hne, hchars, hend⟩, [], rfl, ?_⟩
      rw [Text.eq_append_of_dropLiteral? hcomment]
      simp only [MarkedComment.text, List.nil_append, List.append_assoc]
    · obtain ⟨d, before, hcategories, rfl⟩ := ih h
      exact ⟨d, c :: before, hcategories, rfl⟩

theorem exists_of_mem_markers (h : (categories, rest) ∈ markers t) :
    ∃ (d : MarkedComment) (before : Text), d.categories.trim = categories ∧ t = before ++ d.text ++ rest := by
  fun_induction markers t with
  | case1 => cases h
  | case2 t found after hnext ih =>
    obtain ⟨d, before, hfound, ht⟩ := nextMarker?_eq_some hnext
    rcases List.mem_cons.1 h with heq | h
    · obtain ⟨rfl, rfl⟩ := Prod.mk.inj heq
      exact ⟨d, before, by rw [hfound], ht⟩
    · obtain ⟨d', before', hfound', hafter⟩ := ih h
      refine ⟨d', before ++ d.text ++ before', hfound', ?_⟩
      rw [ht, hafter]
      simp only [List.append_assoc]

end Markers

/-! ## Classes -/

/-- The parts of a text from inside a comment to the name of the class that belongs to the comment. -/
structure ClassMention where
  /-- What the comment still holds. -/
  remark : Text
  /-- What stands between the end of the comment and the keyword. -/
  gap : Text
  separation : Text
  name : Text
  remark_lacks : ¬ Text.ofString "*/" <:+: remark
  gap_lacks_brace : CodePoint.scalar '{' ∉ gap
  gap_ends : gap.EndsBlank
  separation_ne_nil : separation ≠ []
  separation_blank : ∀ c ∈ separation, c.isBlank
  name_run : name.IsWordRun

def ClassMention.text (d : ClassMention) : Text :=
  d.remark ++ "*/" ++ d.gap ++ "class" ++ d.separation ++ d.name

section Classes

variable {t rest name : Text}

theorem afterComment?_eq_some (h : afterComment? t = some rest) :
    ∃ remark : Text, ¬ Text.ofString "*/" <:+: remark ∧ t = remark ++ ("*/" ++ rest) := by
  induction t with
  | nil => cases h
  | cons c t ih =>
    rw [afterComment?] at h
    split at h
    · next after hafter =>
      obtain rfl := Option.some.inj h
      refine ⟨[], by decide, ?_⟩
      rw [List.nil_append]
      exact Text.eq_append_of_dropLiteral? hafter
    · next hnone =>
      obtain ⟨remark, hlacks, rfl⟩ := ih h
      refine ⟨c :: remark, not_infix_cons (fun hfront => ?_) hlacks, rfl⟩
      rw [Text.dropLiteral?_eq_none_iff] at hnone
      exact hnone (hfront.trans (List.prefix_append (c :: remark) _))

/-- What may stand on a line before the keyword of a class. -/
structure IsLineFront (t : Text) : Prop where
  lacks_brace : CodePoint.scalar '{' ∉ t
  endsBlank : t.EndsBlank

theorem IsLineFront.append {s : Text} (hs : IsLineFront s) (ht : IsLineFront t) : IsLineFront (s ++ t) where
  lacks_brace := by
    rw [List.mem_append, not_or]
    exact ⟨hs.lacks_brace, ht.lacks_brace⟩
  endsBlank := hs.endsBlank.append ht.endsBlank

theorem IsLineFront.of_blanks (h : ∀ c ∈ t, c.isBlank) : IsLineFront t where
  lacks_brace hmem := absurd (h _ hmem) (by decide)
  endsBlank := .of_forall_mem h

theorem not_mem_modifiers : ∀ modifier ∈ modifiers, CodePoint.scalar '{' ∉ modifier := by decide

theorem isLineFront_spacedModifiers {mods : List (Text × Text)}
    (hmods : ∀ m ∈ mods, m.1 ∈ modifiers ∧ m.2.IsBlankRun) : IsLineFront (spacedModifiers mods) := by
  induction mods with
  | nil => exact .of_blanks (List.forall_mem_nil _)
  | cons m mods ih =>
    obtain ⟨⟨hm, hblanks⟩, hmods⟩ := List.forall_mem_cons.1 hmods
    have hfirst : IsLineFront (m.1 ++ m.2) := by
      constructor
      · rw [List.mem_append, not_or]
        exact ⟨not_mem_modifiers m.1 hm, (IsLineFront.of_blanks hblanks.isBlank).lacks_brace⟩
      · intro c hc
        rw [List.getLast?_append_of_ne_nil _ hblanks.ne_nil] at hc
        exact hblanks.isBlank c (List.mem_of_getLast? hc)
    rw [spacedModifiers, List.flatMap_cons]
    exact hfirst.append (ih hmods)

/-- The keyword of a class and its name, behind what may stand before them on their line. -/
theorem classAt?_eq_some (h : classAt? t = some name) :
    ∃ front separation body : Text, IsLineFront front ∧ separation ≠ [] ∧ (∀ c ∈ separation, c.isBlank) ∧
      name.IsWordRun ∧ (∀ c, body.head? = some c → c.isWord = false) ∧
      t = front ++ ("class" ++ separation ++ name ++ body) := by
  obtain ⟨d, rfl, body, rfl, hbody⟩ := classAt?_eq_some_iff.1 h
  have hindentation : ∀ c ∈ d.indentation, c.isBlank := by
    intro c hc
    rcases d.indentation_chars c hc with rfl | rfl
    · decide
    · decide
  have hfront := (IsLineFront.of_blanks hindentation).append (isLineFront_spacedModifiers d.mods_mem)
  refine ⟨_, d.separation, body, hfront, d.separation_run.ne_nil, d.separation_run.isBlank, d.name_run, hbody, ?_⟩
  simp only [ClassLine.text, List.append_assoc]

/-- The lines before that of the class hold no brace. -/
theorem classOnLine?_eq_some (h : classOnLine? t = some name) :
    ∃ lines line : Text, CodePoint.scalar '{' ∉ lines ∧ classAt? line = some name ∧
      t = lines ++ CodePoint.scalar '\n' :: line := by
  fun_induction classOnLine? t with
  | case1 => cases h
  | case2 => cases h
  | case3 t found hfound => exact ⟨[], t, List.not_mem_nil, hfound.trans h, rfl⟩
  | case4 t hnone hbrace ih =>
    obtain ⟨lines, line, hlines, hline, rfl⟩ := ih h
    refine ⟨_ :: lines, line, ?_, hline, rfl⟩
    rw [List.mem_cons, not_or]
    exact ⟨by decide, hlines⟩
  | case5 c t hbrace hbreak ih =>
    obtain ⟨lines, line, hlines, hline, rfl⟩ := ih h
    refine ⟨c :: lines, line, ?_, hline, rfl⟩
    rw [List.mem_cons, not_or]
    exact ⟨Ne.symm hbrace, hlines⟩

theorem declaredClass?_eq_some (h : declaredClass? t = some name) :
    ∃ (d : ClassMention) (body : Text), d.name = name ∧ t = d.text ++ body ∧
      ∀ c, body.head? = some c → c.isWord = false := by
  obtain ⟨after, hafter, hclass⟩ := Option.bind_eq_some_iff.1 h
  obtain ⟨remark, hremark, rfl⟩ := afterComment?_eq_some hafter
  have hline : ∃ lines line : Text, IsLineFront lines ∧ classAt? line = some name ∧ after = lines ++ line := by
    split at hclass
    · next found hfound =>
      obtain ⟨lines, line, hlines, hline, hsplit⟩ := classOnLine?_eq_some (hfound.trans hclass)
      refine ⟨lines ++ [.scalar '\n'], line, ⟨?_, ?_⟩, hline, hsplit.trans (List.append_cons ..)⟩
      · simpa using hlines
      · intro c hc
        obtain rfl : CodePoint.scalar '\n' = c := by simpa using hc
        decide
    · exact ⟨[], after, .of_blanks (List.forall_mem_nil _), hclass, rfl⟩
  obtain ⟨lines, line, hlines, hat, rfl⟩ := hline
  obtain ⟨front, separation, body, hfront, hne, hblanks, hname, hbody, rfl⟩ := classAt?_eq_some hat
  have hgap := hlines.append hfront
  refine ⟨⟨remark, lines ++ front, separation, name, hremark, hgap.lacks_brace, hgap.endsBlank, hne, hblanks,
    hname⟩, body, rfl, ?_, hbody⟩
  simp only [ClassMention.text, List.append_assoc]

end Classes

/-! ## Characters of a module -/

theorem isSurrogate_of_isModuleChar {c : CodePoint} (h : isModuleChar c) : c.isSurrogate = false := by
  cases c with
  | scalar c => rfl
  | surrogate offset =>
    have hword : ¬ (CodePoint.surrogate offset).isWord := by
      intro hword
      obtain ⟨range, hrange, hbounds⟩ := RangeTable.exists_of_contains hword
      have hdisjoint := CodePoint.wordRanges_disjoint_surrogates range hrange
      have hoffset := offset.isLt
      simp only [CodePoint.toNat] at hbounds
      omega
    simp [isModuleChar, isMarkerChar, hword] at h

/-- The texts of a declared module hold no surrogate. -/
theorem isUnicode_of_declaredModule? {t : Text} {m : Module} (h : declaredModule? t = some m) :
    ∀ piece ∈ m.texts, piece.isUnicode := by
  intro piece hpiece
  rw [Text.isUnicode, List.all_eq_true]
  intro c hc
  rw [isSurrogate_of_isModuleChar (isModuleChar_of_declaredModule? h piece hpiece c hc)]
  rfl

theorem isBlank_of_isModuleChar {c : CodePoint} (h : isModuleChar c) (hspace : c ≠ .scalar ' ') :
    c.isBlank = false := by
  simp only [isModuleChar, isMarkerChar, Bool.or_eq_true, decide_eq_true_eq] at h
  rcases h with ((((((h | h) | rfl) | rfl) | rfl) | rfl) | rfl) | rfl
  · exact CodePoint.isBlank_of_isWord h
  · exact absurd h hspace
  all_goals decide

/-- The entries of category text are split at its spaces, so none of their parts holds one. -/
theorem not_mem_texts_of_parseAll {t piece : Text} {category : Category} (hcategory : category ∈ Category.parseAll t)
    (h : piece ∈ category.texts) : CodePoint.scalar ' ' ∉ piece := by
  obtain ⟨entry, hentry, rfl⟩ := List.mem_map.1 hcategory
  exact fun hspace => Text.not_mem_of_mem_splitOn hentry (Category.subset_of_mem_texts_parse h hspace)

/-! ## Modules -/

/-- What a text that declares a module consists of. -/
structure Finding where
  opening : Text
  space : NamespaceDeclaration
  preamble : Text
  comment : MarkedComment
  mention : ClassMention
  body : Text
  body_ends : ∀ c, body.head? = some c → c.isWord = false

namespace Finding

variable (f : Finding)

/-- What follows the namespace declaration. -/
def afterSpace : Text := f.preamble ++ f.comment.text ++ f.mention.text ++ f.body

def text : Text := f.opening ++ f.space.text ++ f.afterSpace

def module : Module := ⟨f.space.path, f.mention.name, Category.parseAll f.comment.categories⟩

/-- Whether the namespace declaration is not the end of a longer word, and none begins before it. -/
def IsFirst : Prop :=
  f.space.StandsIn f.text f.opening f.afterSpace ∧
    ∀ (other : NamespaceDeclaration) (before rest : Text), other.StandsIn f.text before rest →
      f.opening.length ≤ before.length

theorem isBlank_of_mem_texts {piece : Text} (hpiece : piece ∈ f.module.texts) {c : CodePoint} (hc : c ∈ piece)
    (hchar : isModuleChar c) : c.isBlank = false := by
  apply isBlank_of_isModuleChar hchar
  rintro rfl
  rcases List.mem_cons.1 hpiece with rfl | hpiece
  · rcases Text.mem_joinWith hc with h | ⟨word, hword, h⟩
    · exact absurd h (by decide)
    · exact absurd ((f.space.words_run word hword).isWord _ h) (by decide)
  · rcases List.mem_cons.1 hpiece with rfl | hpiece
    · exact absurd (f.mention.name_run.isWord _ hc) (by decide)
    · obtain ⟨category, hcategory, hpiece⟩ := List.mem_flatMap.1 hpiece
      exact not_mem_texts_of_parseAll hcategory hpiece hc

theorem not_mem_typeName : CodePoint.scalar '\\' ∉ f.module.typeName :=
  fun h => absurd (f.mention.name_run.isWord _ h) (by decide)

end Finding

theorem exists_finding {t : Text} {m : Module} (h : declaredModule? t = some m) :
    ∃ f : Finding, f.text = t ∧ f.module = m ∧ f.IsFirst := by
  obtain ⟨⟨path, rest⟩, hspace, hmodule⟩ := Option.bind_eq_some_iff.1 h
  obtain ⟨⟨categories, after⟩, hmarker, hclass⟩ := List.exists_of_findSome?_eq_some hmodule
  obtain ⟨name, hname, rfl⟩ := Option.map_eq_some_iff.1 hclass
  obtain ⟨space, opening, rfl, ⟨rfl, hopening⟩, hfirst⟩ := exists_first_of_declaredNamespace? hspace
  obtain ⟨comment, preamble, rfl, rfl⟩ := exists_of_mem_markers hmarker
  obtain ⟨mention, body, rfl, rfl, hbody⟩ := declaredClass?_eq_some hname
  have hafter : preamble ++ comment.text ++ (mention.text ++ body) =
      preamble ++ comment.text ++ mention.text ++ body := (List.append_assoc ..).symm
  rw [hafter] at hfirst ⊢
  refine ⟨⟨opening, space, preamble, comment, mention, body, hbody⟩, rfl, ?_, ⟨rfl, hopening⟩, hfirst⟩
  rw [Finding.module, parseAll_trim]

/-- A declared module is made of what its text says, has a category, holds neither blanks nor surrogates, and
is told from the others by its qualified name. -/
theorem declaredModule?_sound {t : Text} {m : Module} (h : declaredModule? t = some m) :
    (∃ f : Finding, f.text = t ∧ f.module = m ∧ f.IsFirst) ∧
    m.categories ≠ [] ∧
    (∀ piece ∈ m.texts, ∀ c ∈ piece, c.isBlank = false ∧ c.isSurrogate = false) ∧
    ∀ (t' : Text) (m' : Module), declaredModule? t' = some m' → m'.qualifiedName = m.qualifiedName →
      m'.enclosing = m.enclosing ∧ m'.typeName = m.typeName := by
  have hchars := isModuleChar_of_declaredModule? h
  obtain ⟨f, hf, rfl, hfirst⟩ := exists_finding h
  refine ⟨⟨f, hf, rfl, hfirst⟩, Category.parseAll_ne_nil _, ?_, ?_⟩
  · intro piece hpiece c hc
    have hchar := hchars piece hpiece c hc
    exact ⟨f.isBlank_of_mem_texts hpiece hc hchar, isSurrogate_of_isModuleChar hchar⟩
  · intro t' m' h' hname
    obtain ⟨f', -, rfl, -⟩ := exists_finding h'
    exact Text.append_cons_inj_of_not_mem f'.not_mem_typeName f.not_mem_typeName hname

/-- A text with two markers. A brace stands between the first one and any class. -/
def guardedText : Text :=
  "<?php namespace A\\B ;\n/**@module none\n*/ if (1) {}\n/** @module a(b=1) c\r\n * */\nfinal class C {}"

def guardedModule : Module := ⟨"A\\B", "C", [⟨"a", [⟨some "b", "1"⟩]⟩, .bare "c"]⟩

theorem declaredModule?_guardedText : declaredModule? guardedText = some guardedModule := by
  have hspace : declaredNamespace? guardedText = some (("A\\B" : Text),
      ("\n/**@module none\n*/ if (1) {}\n/** @module a(b=1) c\r\n * */\nfinal class C {}" : Text)) := by
    decide +kernel
  have hmarker : nextMarker? "\n/**@module none\n*/ if (1) {}\n/** @module a(b=1) c\r\n * */\nfinal class C {}" =
      some (("none" : Text), ("*/ if (1) {}\n/** @module a(b=1) c\r\n * */\nfinal class C {}" : Text)) := by
    decide +kernel
  have hmarker' : nextMarker? "*/ if (1) {}\n/** @module a(b=1) c\r\n * */\nfinal class C {}" =
      some (("a(b=1) c" : Text), (" * */\nfinal class C {}" : Text)) := by decide +kernel
  have hlast : nextMarker? " * */\nfinal class C {}" = none := by decide +kernel
  simp only [declaredModule?, hspace, Option.bind_eq_bind, Option.bind_some, markers_of_some hmarker,
    markers_of_some hmarker', markers_of_none hlast]
  decide +kernel

theorem declaredModule?_sound_guardedText : declaredModule? guardedText = some guardedModule ∧
    (∃ f : Finding, f.text = guardedText ∧ f.module = guardedModule ∧ f.IsFirst) ∧
    ∀ (t : Text) (m : Module), declaredModule? t = some m → m.qualifiedName = "A\\B\\C" →
      m.enclosing = "A\\B" ∧ m.typeName = "C" := by
  obtain ⟨hfinding, -, -, hname⟩ := declaredModule?_sound declaredModule?_guardedText
  exact ⟨declaredModule?_guardedText, hfinding, hname⟩

end Source

end ModuleCatalog
