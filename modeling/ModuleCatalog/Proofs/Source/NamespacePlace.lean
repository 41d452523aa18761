import ModuleCatalog.Proofs.Source.Soundness

/-!
# Where a namespace is declared

The places of a text at which a namespace is declared are said here without a search for them: the keyword stands
there and is not the end of a longer word, and blanks, a path read as far as it goes, perhaps blanks and a semicolon
follow it. The search finds the declaration at the first of these places, and nothing only if there is none. So a
place at which a declaration begins and goes wrong hides no declaration further on.
-/

namespace ModuleCatalog

theorem Text.drop_eq_append_iff {t l rest : Text} {place : Nat} :
    t.drop place = l ++ rest ↔ t.StandsAt l place ∧ rest = t.drop (place + l.length) := by
  rw [← Text.dropLiteral?_drop_eq_some_iff, Text.dropLiteral?_eq_some_iff]

namespace Source

open Text (StandsAt IsWordRun IsBlankRun)

/-! ## Paths and declarations -/

/-- Whether a text is a path: words joined by single backslashes, at least one of them. -/
def IsPath (p : Text) : Prop :=
  ∃ words : List Text, words ≠ [] ∧ (∀ word ∈ words, word.IsWordRun) ∧ p = Text.joinWith "\\" words

/-- Whether a path stands at a place of a text, and no longer one does. -/
structure LongestPathAt (t : Text) (place : Nat) (path : Text) : Prop where
  isPath : IsPath path
  stands : t.StandsAt path place
  longest : ∀ other, IsPath other → t.StandsAt other place → other.length ≤ path.length

/-- Whether a namespace is declared at a place of a text, by what stands there up to the place behind the
semicolon. -/
structure DeclaresNamespace (t : Text) (place : Nat) (path : Text) (stop : Nat) : Prop where
  apart : place = 0 ∨ ∃ c, t[place - 1]? = some c ∧ c.isWord = false
  keyword : t.StandsAt "namespace" place
  declared : ∃ separation padding : Text, separation.IsBlankRun ∧ (∀ c ∈ padding, c.isBlank) ∧
    t.StandsAt separation (place + 9) ∧ LongestPathAt t (place + 9 + separation.length) path ∧
    t.StandsAt (padding ++ ";") (place + 9 + separation.length + path.length) ∧
    stop = place + 9 + separation.length + path.length + padding.length + 1

/-- The places of a text at which a namespace is declared. -/
def namespacePlaces (t : Text) : Set Nat := {place | ∃ path stop, DeclaresNamespace t place path stop}

section Paths

variable {t path rest other : Text} {place : Nat}

theorem IsPath.isWord_or_backslash (h : IsPath path) : ∀ c ∈ path, c.isWord ∨ c = .scalar '\\' := by
  obtain ⟨words, -, hwords, rfl⟩ := h
  intro c hc
  rcases Text.mem_joinWith hc with hseparator | ⟨word, hword, hc⟩
  · exact .inr (List.mem_singleton.1 hseparator)
  · exact .inl ((hwords word hword).isWord c hc)

theorem NamespaceDeclaration.isPath (d : NamespaceDeclaration) : IsPath d.path :=
  ⟨d.words, d.words_ne_nil, d.words_run, rfl⟩

/-- A path goes no further than to what can be no part of one. -/
theorem IsPath.length_le (hother : IsPath other) (hrest : EndsPath rest) (h : other <+: path ++ rest) :
    other.length ≤ path.length := by
  by_contra hlonger
  obtain ⟨more, rfl⟩ := List.prefix_of_prefix_length_le (List.prefix_append path rest) h (Nat.le_of_not_le hlonger)
  cases more with
  | nil => exact hlonger (by rw [List.append_nil])
  | cons c more =>
    obtain ⟨after, rfl⟩ := (List.prefix_append_right_inj path).1 h
    obtain ⟨hword, hbackslash⟩ := hrest c rfl
    rcases hother.isWord_or_backslash c (List.mem_append_right path List.mem_cons_self) with hc | hc
    · rw [hword] at hc
      cases hc
    · exact hbackslash hc

end Paths

/-! ## Declarations as parts of a text -/

section Parts

variable {t path rest : Text} {place stop : Nat}

theorem NamespaceDeclaration.length_text (d : NamespaceDeclaration) :
    d.text.length = 9 + d.separation.length + d.path.length + d.padding.length + 1 := by
  simp only [text, List.length_append]
  rfl

theorem DeclaresNamespace.exists_text (h : DeclaresNamespace t place path stop) :
    ∃ d : NamespaceDeclaration, d.path = path ∧ t.drop place = d.text ++ t.drop stop ∧
      stop = place + d.text.length := by
  obtain ⟨separation, padding, ⟨hne, hblank⟩, hpadding, hseparation, hpath, hend, hstop⟩ := h.declared
  obtain ⟨words, hwords, hruns, hjoined⟩ := hpath.isPath
  have hkeyword : t.drop place = "namespace" ++ t.drop (place + 9) := Text.drop_eq_append_iff.2 ⟨h.keyword, rfl⟩
  have hlast : stop = place + 9 + separation.length + path.length + (padding ++ Text.ofString ";").length := by
    rw [hstop, List.length_append]
    rfl
  refine ⟨⟨separation, words, padding, hne, hblank, hwords, hruns, hpadding⟩, hjoined.symm, ?_, ?_⟩
  · calc t.drop place = "namespace" ++ t.drop (place + 9) := hkeyword
      _ = "namespace" ++ (separation ++ (path ++ (padding ++ ";" ++ t.drop stop))) := by
        rw [Text.drop_eq_append_iff.2 ⟨hseparation, rfl⟩, Text.drop_eq_append_iff.2 ⟨hpath.stands, rfl⟩,
          Text.drop_eq_append_iff.2 ⟨hend, rfl⟩, hlast]
      _ = _ := by simp only [NamespaceDeclaration.text, NamespaceDeclaration.path, hjoined, List.append_assoc]
  · rw [NamespaceDeclaration.length_text, NamespaceDeclaration.path, ← hjoined, hstop]
    simp only [Nat.add_assoc]

theorem declaresNamespace_of_text (d : NamespaceDeclaration)
    (hapart : place = 0 ∨ ∃ c, t[place - 1]? = some c ∧ c.isWord = false) (h : t.drop place = d.text ++ rest) :
    DeclaresNamespace t place d.path (place + d.text.length) := by
  have hsplit : t.drop place =
      "namespace" ++ (d.separation ++ (d.path ++ (d.padding ++ ";" ++ rest))) := by
    rw [h, NamespaceDeclaration.text]
    simp only [List.append_assoc]
  obtain ⟨hkeyword, hbehind⟩ := Text.drop_eq_append_iff.1 hsplit
  obtain ⟨hseparation, hpaths⟩ := Text.drop_eq_append_iff.1 hbehind.symm
  obtain ⟨hpath, hends⟩ := Text.drop_eq_append_iff.1 hpaths.symm
  obtain ⟨hend, -⟩ := Text.drop_eq_append_iff.1 hends.symm
  refine ⟨hapart, hkeyword, d.separation, d.padding, ⟨d.separation_ne_nil, d.separation_blank⟩, d.padding_blank,
    hseparation, ⟨d.isPath, hpath, fun other hother hstands => ?_⟩, hend, ?_⟩
  · have hfront : other <+: t.drop (place + (Text.ofString "namespace").length + d.separation.length) := hstands
    rw [← hpaths, List.append_assoc] at hfront
    exact hother.length_le (d.endsPath_padding rest) hfront
  · rw [d.length_text]
    omega

theorem apart_iff (h : place ≤ t.length) : (place = 0 ∨ ∃ c, t[place - 1]? = some c ∧ c.isWord = false) ↔
    ∀ c, (t.take place).getLast? = some c → c.isWord = false := by
  cases place with
  | zero => simp
  | succ place =>
    have hc := List.getElem?_eq_getElem (Nat.lt_of_succ_le h)
    simp [List.getLast?_take, hc]

/-- A namespace is declared at a place if the text goes on there with a declaration. -/
theorem declaresNamespace_iff : DeclaresNamespace t place path stop ↔
    ∃ (d : NamespaceDeclaration) (before rest : Text), d.path = path ∧ d.StandsIn t before rest ∧
      before.length = place ∧ stop = place + d.text.length := by
  constructor
  · intro h
    obtain ⟨d, hpath, hdrop, hstop⟩ := h.exists_text
    have hlength : place + 9 ≤ t.length := h.keyword.le_length (List.cons_ne_nil _ _)
    have hplace : place ≤ t.length := by omega
    refine ⟨d, t.take place, t.drop stop, hpath, ⟨?_, (apart_iff hplace).1 h.apart⟩, List.length_take_of_le hplace,
      hstop⟩
    rw [List.append_assoc, ← hdrop, List.take_append_drop]
  · rintro ⟨d, before, rest, rfl, ⟨rfl, hapart⟩, rfl, rfl⟩
    have hdrop : (before ++ d.text ++ rest).drop before.length = d.text ++ rest := by
      rw [List.append_assoc, List.drop_left]
    have htake : (before ++ d.text ++ rest).take before.length = before := by
      rw [List.append_assoc, List.take_left]
    refine declaresNamespace_of_text d ((apart_iff ?_).2 ?_) hdrop
    · simp only [List.length_append]
      omega
    · rwa [htake]

/-- What is declared at a place is determined by the text. -/
theorem DeclaresNamespace.unique {path' : Text} {stop' : Nat} (h : DeclaresNamespace t place path stop)
    (h' : DeclaresNamespace t place path' stop') : path = path' ∧ stop = stop' := by
  obtain ⟨d, rfl, hdrop, rfl⟩ := h.exists_text
  obtain ⟨d', rfl, hdrop', rfl⟩ := h'.exists_text
  have hfound := d.namespaceAt?_text (t.drop (place + d.text.length))
  rw [← hdrop, hdrop', d'.namespaceAt?_text] at hfound
  obtain ⟨hpath, hrest⟩ := Prod.mk.inj (Option.some.inj hfound)
  have hlength := congrArg List.length (hdrop.symm.trans hdrop')
  rw [List.length_append, List.length_append, hrest] at hlength
  exact ⟨hpath.symm, by omega⟩

end Parts

/-! ## Searching -/

section Search

variable {t path rest : Text}

/-- If no declaration is found, none stands apart from the word before it. -/
theorem namespaceFrom?_eq_none {afterWord : Bool} (h : namespaceFrom? afterWord t = none) (d : NamespaceDeclaration)
    (before : Text) (ht : t = before ++ d.text ++ rest) : afterWordAt afterWord before = true := by
  induction t generalizing afterWord before with
  | nil =>
    have hlength := congrArg List.length ht
    rw [List.length_nil, List.length_append, List.length_append, d.length_text] at hlength
    omega
  | cons c t ih =>
    rw [namespaceFrom?] at h
    split at h
    · cases h
    · next hnone =>
      cases before with
      | nil =>
        cases afterWord with
        | true => rfl
        | false =>
          rw [if_neg Bool.false_ne_true, ht, List.nil_append, d.namespaceAt?_text] at hnone
          cases hnone
      | cons c' before =>
        obtain ⟨rfl, hrest⟩ := List.cons.inj ht
        rw [afterWordAt_cons]
        exact ih h before hrest

theorem namespacePlaces_eq_empty (h : declaredNamespace? t = none) : namespacePlaces t = ∅ := by
  rw [Set.eq_empty_iff_forall_notMem]
  rintro place ⟨path, stop, hdeclares⟩
  obtain ⟨d, before, rest, -, ⟨ht, hapart⟩, -, -⟩ := declaresNamespace_iff.1 hdeclares
  have hafter := namespaceFrom?_eq_none h d before ht
  rw [afterWordAt_eq_false_iff.2 hapart] at hafter
  cases hafter

/-- What is found is declared at the first place. -/
theorem exists_isLeast_of_declaredNamespace? (h : declaredNamespace? t = some (path, rest)) :
    ∃ place, IsLeast (namespacePlaces t) place ∧ DeclaresNamespace t place path (t.length - rest.length) := by
  obtain ⟨d, before, hpath, hstands, hfirst⟩ := exists_first_of_declaredNamespace? h
  have hstop : t.length - rest.length = before.length + d.text.length := by
    rw [hstands.1, List.length_append, List.length_append]
    omega
  have hdeclares : DeclaresNamespace t before.length path (t.length - rest.length) :=
    declaresNamespace_iff.2 ⟨d, before, rest, hpath, hstands, rfl, hstop⟩
  refine ⟨before.length, ⟨⟨_, _, hdeclares⟩, ?_⟩, hdeclares⟩
  rintro other ⟨path', stop', hother⟩
  obtain ⟨d', before', rest', -, hstands', rfl, -⟩ := declaresNamespace_iff.1 hother
  exact hfirst d' before' rest' hstands'

/-- The namespace of a text, with the place behind its declaration, is what is declared at the first place. So it is
found unless there is no such place, and a place before it at which no declaration stands does not matter. -/
theorem namespaceAndEnd?_spec (t : Text) :
    (∀ path stop, namespaceAndEnd? t = some (path, stop) ↔
      ∃ place, IsLeast (namespacePlaces t) place ∧ DeclaresNamespace t place path stop) ∧
    (namespaceAndEnd? t = none ↔ namespacePlaces t = ∅) ∧
    ∀ place path stop, DeclaresNamespace t place path stop → ∃ first path' stop',
      first ≤ place ∧ DeclaresNamespace t first path' stop' ∧ namespaceAndEnd? t = some (path', stop') := by
  cases hfound : declaredNamespace? t with
  | none =>
    have hnone : namespaceAndEnd? t = none := by rw [namespaceAndEnd?, hfound, Option.map_none]
    have hempty := namespacePlaces_eq_empty hfound
    refine ⟨fun path stop => ⟨fun h => ?_, fun ⟨place, hplace, _⟩ => ?_⟩, ⟨fun _ => hempty, fun _ => hnone⟩, ?_⟩
    · cases hnone.symm.trans h
    · exact absurd hplace.1 (hempty ▸ Set.notMem_empty place)
    · intro place path stop hdeclares
      have hmem : place ∈ namespacePlaces t := ⟨path, stop, hdeclares⟩
      exact absurd hmem (hempty ▸ Set.notMem_empty place)
  | some found =>
    obtain ⟨name, rest⟩ := found
    obtain ⟨first, hfirst, hdeclares⟩ := exists_isLeast_of_declaredNamespace? hfound
    have hsome : namespaceAndEnd? t = some (name, t.length - rest.length) := by
      rw [namespaceAndEnd?, hfound, Option.map_some]
    refine ⟨fun path stop => ⟨fun h => ?_, fun ⟨place, hplace, hat⟩ => ?_⟩, ⟨fun h => ?_, fun h => ?_⟩, ?_⟩
    · obtain ⟨rfl, rfl⟩ := Prod.mk.inj (Option.some.inj (hsome.symm.trans h))
      exact ⟨first, hfirst, hdeclares⟩
    · obtain rfl := hplace.unique hfirst
      obtain ⟨rfl, rfl⟩ := hat.unique hdeclares
      exact hsome
    · cases hsome.symm.trans h
    · exact absurd hfirst.1 (h ▸ Set.notMem_empty first)
    · intro place path stop hat
      exact ⟨first, name, _, hfirst.2 ⟨path, stop, hat⟩, hdeclares, hsome⟩

/-- Declarations that go wrong: in a longer word, without a word behind the last backslash, with two backslashes in a
row, and without a semicolon. -/
example : namespaceAndEnd? "xnamespace A; namespace B\\; namespace C\\\\D; namespace E namespace F\\G ;" =
    some (Text.ofString "F\\G", 71) := by
  cbv

end Search

end Source

end ModuleCatalog
