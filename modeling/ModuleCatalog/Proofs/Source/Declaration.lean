import ModuleCatalog.Proofs.Source.ClassLine
import ModuleCatalog.Proofs.Text.Literal
import ModuleCatalog.Source.Declared

/-!
# Sources of the usual form

A source text declares a namespace, marks a doc comment behind it, and declares a class on one of the lines
behind the comment. Whatever else stands around these declarations, the module they make is found, because
no earlier place of the text could be taken for one of them.
-/

namespace ModuleCatalog.Source

open Text (dropLiteral? IsWordRun)

/-- The parts of a source text that declares a module. -/
structure Declaration where
  /-- What stands before the namespace declaration. -/
  opening : Text
  /-- The words of the namespace. -/
  path : List Text
  /-- What stands between the namespace declaration and the doc comment. -/
  preamble : Text
  /-- What the doc comment holds before the marker. -/
  description : Text
  /-- The category text of the marker. -/
  categories : Text
  /-- What the doc comment holds behind the marker's line. -/
  remark : Text
  /-- What stands between the doc comment and the line of the class. -/
  gap : Text
  indentation : Text
  modifiers : List Text
  /-- The name of the class. -/
  name : Text
  /-- What follows the name of the class. -/
  body : Text
  opening_lacks : ¬ Text.ofString "namespace" <:+: opening
  opening_ends : ∀ c, opening.getLast? = some c → c.isWord = false
  path_ne_nil : path ≠ []
  path_words : ∀ word ∈ path, word.IsWordRun
  preamble_lacks : ¬ Text.ofString "/**" <:+: preamble
  description_lacks_end : ¬ Text.ofString "*/" <:+: description
  description_lacks_marker : ¬ Text.ofString "@module " <:+: description
  categories_ne_nil : categories ≠ []
  categories_chars : ∀ c ∈ categories, isMarkerChar c
  remark_lacks : ¬ Text.ofString "*/" <:+: remark
  gap_lacks_brace : CodePoint.scalar '{' ∉ gap
  gap_lacks_class : ¬ Text.ofString "class" <:+: gap
  indentation_chars : ∀ c ∈ indentation, c = .scalar ' ' ∨ c = .scalar '\t'
  modifiers_mem : ∀ modifier ∈ modifiers, modifier ∈ Source.modifiers
  name_word : name.IsWordRun
  body_ends : ∀ c, body.head? = some c → c.isWord = false

namespace Declaration

/-- The words of the namespace joined by single backslashes. -/
def enclosing (d : Declaration) : Text := Text.joinWith "\\" d.path

/-- Every modifier with a space behind it. -/
def modifierText (modifiers : List Text) : Text := modifiers.flatMap fun modifier => modifier ++ " "

/-- The line of the class, and what follows it. -/
def classLine (d : Declaration) : Text :=
  d.indentation ++ modifierText d.modifiers ++ "class" ++ " " ++ d.name ++ d.body

/-- What follows the line of the marker. -/
def afterMarker (d : Declaration) : Text := d.remark ++ "*/" ++ d.gap ++ "\n" ++ d.classLine

/-- What follows the namespace declaration. -/
def afterNamespace (d : Declaration) : Text :=
  d.preamble ++ "/**" ++ d.description ++ "@module " ++ d.categories ++ "\n" ++ d.afterMarker

def text (d : Declaration) : Text :=
  d.opening ++ "namespace " ++ d.enclosing ++ ";" ++ d.afterNamespace

def module (d : Declaration) : Module := ⟨d.enclosing, d.name, Category.parseAll d.categories⟩

end Declaration

/-! ## The namespace -/

theorem joinWith_cons (separator piece : Text) (pieces : List Text) :
    Text.joinWith separator (piece :: pieces) = piece ++ pieces.flatMap (separator ++ ·) := by
  induction pieces generalizing piece with
  | nil => rw [List.flatMap_nil, List.append_nil, Text.joinWith]
  | cons next pieces ih =>
    calc Text.joinWith separator (piece :: next :: pieces)
        = piece ++ separator ++ Text.joinWith separator (next :: pieces) := by simp [Text.joinWith]
      _ = piece ++ (next :: pieces).flatMap (separator ++ ·) := by
        rw [ih, List.flatMap_cons, List.append_assoc, List.append_assoc]

/-- What may follow a path: neither a word character nor a backslash. -/
def EndsPath (rest : Text) : Prop :=
  ∀ c, rest.head? = some c → c.isWord = false ∧ c ≠ .scalar '\\'

theorem head?_path_isWord {words : List Text} {rest : Text} (hrest : EndsPath rest) :
    ∀ c, (words.flatMap (Text.ofString "\\" ++ ·) ++ rest).head? = some c → c.isWord = false := by
  intro c hc
  cases words with
  | nil => exact (hrest c hc).1
  | cons word words =>
    obtain rfl := Option.some.inj hc
    decide

theorem spanPath_append {words : List Text} (hwords : ∀ word ∈ words, IsWordRun word) {rest : Text}
    (hrest : EndsPath rest) {fuel : Nat} (hfuel : words.length ≤ fuel) :
    spanPath fuel (words.flatMap (Text.ofString "\\" ++ ·) ++ rest) =
      (words.flatMap (Text.ofString "\\" ++ ·), rest) := by
  induction words generalizing fuel with
  | nil =>
    cases fuel with
    | zero => rfl
    | succ fuel =>
      rw [List.flatMap_nil, List.nil_append, spanPath]
      rintro after rfl
      exact (hrest _ rfl).2 rfl
  | cons word words ih =>
    obtain ⟨fuel, rfl⟩ := Nat.exists_eq_succ_of_ne_zero (Nat.ne_of_gt (Nat.lt_of_lt_of_le (Nat.succ_pos _) hfuel))
    have hword := hwords word List.mem_cons_self
    have hspan : Text.spanWord (word ++ (words.flatMap (Text.ofString "\\" ++ ·) ++ rest)) =
        (word, words.flatMap (Text.ofString "\\" ++ ·) ++ rest) :=
      Text.spanWord_append hword (head?_path_isWord hrest)
    have hmore := ih (fun other hother => hwords other (List.mem_cons_of_mem _ hother))
      (Nat.le_of_succ_le_succ hfuel)
    have hstep : spanPath (fuel + 1)
        (CodePoint.scalar '\\' :: (word ++ (words.flatMap (Text.ofString "\\" ++ ·) ++ rest))) =
        (CodePoint.scalar '\\' :: word ++ words.flatMap (Text.ofString "\\" ++ ·), rest) := by
      obtain ⟨c, tail, rfl, -⟩ := hword.exists_cons
      simp only [spanPath, hspan, hmore]
    rw [List.flatMap_cons, List.append_assoc, List.append_assoc]
    exact hstep

theorem length_le_length_flatMap {f : Text → Text} (hf : ∀ piece, f piece ≠ []) (pieces : List Text) :
    pieces.length ≤ (pieces.flatMap f).length := by
  induction pieces with
  | nil => exact Nat.zero_le _
  | cons piece pieces ih =>
    have hpiece : 0 < (f piece).length := List.length_pos_iff.2 (hf piece)
    rw [List.flatMap_cons, List.length_append, List.length_cons]
    omega

theorem namespacePath?_append {words : List Text} (hne : words ≠ [])
    (hwords : ∀ word ∈ words, IsWordRun word) {rest : Text} (hrest : EndsPath rest) :
    namespacePath? (Text.joinWith "\\" words ++ rest) = some (Text.joinWith "\\" words, rest) := by
  obtain ⟨word, words, rfl⟩ := List.exists_cons_of_ne_nil hne
  obtain ⟨hword, hwords⟩ := List.forall_mem_cons.1 hwords
  have hspan : Text.spanWord (word ++ (words.flatMap (Text.ofString "\\" ++ ·) ++ rest)) =
      (word, words.flatMap (Text.ofString "\\" ++ ·) ++ rest) :=
    Text.spanWord_append hword (head?_path_isWord hrest)
  have hfuel : words.length ≤ (words.flatMap (Text.ofString "\\" ++ ·) ++ rest).length := by
    rw [List.length_append]
    exact Nat.le_add_right_of_le (length_le_length_flatMap (fun _ => List.cons_ne_nil _ _) words)
  have hpath := spanPath_append hwords hrest hfuel
  obtain ⟨c, tail, rfl, -⟩ := hword.exists_cons
  rw [joinWith_cons, List.append_assoc, namespacePath?]
  simp only [hspan, hpath]

theorem namespaceAt?_append {words : List Text} (hne : words ≠ [])
    (hwords : ∀ word ∈ words, IsWordRun word) (after : Text) :
    namespaceAt? ("namespace " ++ Text.joinWith "\\" words ++ ";" ++ after) =
      some (Text.joinWith "\\" words, after) := by
  have hrest : EndsPath (Text.ofString ";" ++ after) := by
    intro c hc
    obtain rfl := Option.some.inj hc
    decide
  have hpath := namespacePath?_append hne hwords hrest
  have hblanks : dropBlanks? (Text.ofString " " ++ (Text.joinWith "\\" words ++ (";" ++ after))) =
      some (Text.joinWith "\\" words ++ (";" ++ after)) := by
    obtain ⟨word, words, rfl⟩ := List.exists_cons_of_ne_nil hne
    obtain ⟨c, tail, rfl, hc⟩ := (hwords word List.mem_cons_self).exists_cons
    have htrim : Text.trimLeft (Text.joinWith "\\" ((c :: tail) :: words) ++ (";" ++ after)) =
        Text.joinWith "\\" ((c :: tail) :: words) ++ (";" ++ after) := by
      rw [joinWith_cons]
      exact Text.trimLeft_cons (CodePoint.isBlank_of_isWord hc) _
    exact congrArg some htrim
  have hsplit : "namespace " ++ Text.joinWith "\\" words ++ ";" ++ after =
      Text.ofString "namespace" ++ (Text.ofString " " ++ (Text.joinWith "\\" words ++ (";" ++ after))) := by
    rw [show Text.ofString "namespace " = Text.ofString "namespace" ++ Text.ofString " " from rfl]
    simp only [List.append_assoc]
  have hend : dropLiteral? ";" (Text.trimLeft (";" ++ after)) = some after := by
    rw [show Text.trimLeft (";" ++ after) = ";" ++ after from Text.trimLeft_cons (by decide) after]
    exact Text.dropLiteral?_append ";" after
  rw [hsplit, namespaceAt?, Text.dropLiteral?_append]
  simp only [Option.bind_eq_bind, Option.bind_some, hblanks, hpath, hend]

theorem isWord_of_mem_keyword : ∀ c ∈ Text.ofString "namespace", c.isWord := by decide

/-- A text without the keyword of namespaces hides no declaration behind it. -/
theorem namespaceFrom?_append_of_lacks {before t : Text} (hlacks : ¬ Text.ofString "namespace" <:+: before)
    (hends : ∀ c, before.getLast? = some c → c.isWord = false) {afterWord : Bool}
    (hafter : before = [] → afterWord = false) : namespaceFrom? afterWord (before ++ t) = namespaceFrom? false t := by
  induction before generalizing afterWord with
  | nil => rw [hafter rfl, List.nil_append]
  | cons c before ih =>
    have hnone : namespaceAt? (c :: before ++ t) = none := by
      have hlast := List.getLast?_eq_some_getLast (List.cons_ne_nil c before)
      have hmem : (c :: before).getLast (List.cons_ne_nil c before) ∉ Text.ofString "namespace" := by
        intro hmem
        have hword := isWord_of_mem_keyword _ hmem
        rw [hends _ hlast] at hword
        cases hword
      have hfront : ¬ Text.ofString "namespace" <+: c :: before ++ t :=
        Text.not_prefix_append_of_getLast? hlacks hlast hmem
      rw [namespaceAt?, Text.dropLiteral?_eq_none_iff.2 hfront]
      rfl
    have hstep : (if afterWord then none else namespaceAt? (c :: before ++ t)) = none := by
      rw [hnone, ite_self]
    rw [List.cons_append, namespaceFrom?, ← List.cons_append, hstep]
    apply ih (Text.not_infix_of_cons hlacks)
    · intro d hd
      apply hends
      rw [List.getLast?_cons, hd]
      rfl
    · rintro rfl
      exact hends c rfl

/-- The first namespace declaration is found behind a text without its keyword. -/
theorem namespaceFrom?_append {before t : Text} {found : Text × Text}
    (hlacks : ¬ Text.ofString "namespace" <:+: before)
    (hends : ∀ c, before.getLast? = some c → c.isWord = false)
    (ht : t.head? = some (.scalar 'n')) (hat : namespaceAt? t = some found) {afterWord : Bool}
    (hafter : before = [] → afterWord = false) : namespaceFrom? afterWord (before ++ t) = some found := by
  obtain ⟨t', rfl⟩ := List.head?_eq_some_iff.1 ht
  rw [namespaceFrom?_append_of_lacks hlacks hends hafter, namespaceFrom?, if_neg Bool.false_ne_true, hat]

/-! ## The marker -/

theorem markerAt?_append {categories : Text} (hne : categories ≠ [])
    (hchars : ∀ c ∈ categories, isMarkerChar c) (after : Text) :
    markerAt? ("@module " ++ categories ++ "\n" ++ after) = some (categories, after) := by
  have hend : ∀ c, (Text.ofString "\n" ++ after).head? = some c → isMarkerChar c = false := by
    intro c hc
    obtain rfl := Option.some.inj hc
    decide
  have htake := Text.takeWhile_append hchars hend
  have hdrop := Text.dropWhile_append hchars hend
  have hline : dropLineEnd? (Text.ofString "\n" ++ after) = some after := rfl
  obtain ⟨c, rest, rfl⟩ := List.exists_cons_of_ne_nil hne
  rw [List.append_assoc, List.append_assoc, markerAt?, Text.dropLiteral?_append]
  simp only [Option.bind_eq_bind, Option.bind_some, htake, hdrop, hline]

theorem markerInComment?_append {before t : Text} {marker : Text × Text}
    (hend : ¬ Text.ofString "*/" <:+: before) (hlacks : ¬ Text.ofString "@module " <:+: before)
    (ht : t.head? = some (.scalar '@')) (hat : markerAt? t = some marker) :
    markerInComment? (before ++ t) = some marker := by
  induction before with
  | nil =>
    obtain ⟨t', rfl⟩ := List.head?_eq_some_iff.1 ht
    rw [List.nil_append, markerInComment?, hat]
  | cons c before ih =>
    have hne : c :: before ≠ [] := List.cons_ne_nil c before
    have hmarker : markerAt? (c :: before ++ t) = none := by
      have hafter : ∀ d ∈ (Text.ofString "@module ").tail, t.head? ≠ some d := by
        rw [ht]
        decide
      rw [markerAt?, Text.dropLiteral?_append_of_not_infix hlacks hafter hne]
      rfl
    have hcloses : ¬ Text.startsWith (c :: before ++ t) "*/" := by
      have hafter : ∀ d ∈ (Text.ofString "*/").tail, t.head? ≠ some d := by
        rw [ht]
        decide
      rw [Text.startsWith_iff]
      exact Text.not_prefix_append hend hafter hne
    rw [List.cons_append, markerInComment?, ← List.cons_append, hmarker]
    simp only [if_neg hcloses]
    exact ih (Text.not_infix_of_cons hend) (Text.not_infix_of_cons hlacks)

theorem nextMarker?_append {before t : Text} {marker : Text × Text}
    (hlacks : ¬ Text.ofString "/**" <:+: before) (hmarker : markerInComment? t = some marker) :
    nextMarker? (before ++ ("/**" ++ t)) = some marker := by
  induction before with
  | nil =>
    have hdrop : (dropLiteral? "/**" ("/**" ++ t)).bind markerInComment? = some marker := by
      rw [Text.dropLiteral?_append, Option.bind_some, hmarker]
    have hcons : Text.ofString "/**" ++ t = CodePoint.scalar '/' :: (Text.ofString "**" ++ t) := rfl
    rw [List.nil_append, hcons, nextMarker?, ← hcons, hdrop]
  | cons c before ih =>
    have hhead : (Text.ofString "/**" ++ t).head? = some (.scalar '/') := rfl
    have hafter : ∀ d ∈ (Text.ofString "/**").tail, (Text.ofString "/**" ++ t).head? ≠ some d := by
      rw [hhead]
      decide
    have hdrop := Text.dropLiteral?_append_of_not_infix hlacks hafter (List.cons_ne_nil c before)
    rw [List.cons_append, nextMarker?, ← List.cons_append, hdrop]
    exact ih (Text.not_infix_of_cons hlacks)

/-! ## The class -/

theorem afterComment?_append {before : Text} (hlacks : ¬ Text.ofString "*/" <:+: before) (after : Text) :
    afterComment? (before ++ ("*/" ++ after)) = some after := by
  induction before with
  | nil =>
    have hcons : Text.ofString "*/" ++ after = CodePoint.scalar '*' :: (Text.ofString "/" ++ after) := rfl
    rw [List.nil_append, hcons, afterComment?, ← hcons, Text.dropLiteral?_append]
  | cons c before ih =>
    have hhead : (Text.ofString "*/" ++ after).head? = some (.scalar '*') := rfl
    have hafter : ∀ d ∈ (Text.ofString "*/").tail, (Text.ofString "*/" ++ after).head? ≠ some d := by
      rw [hhead]
      decide
    have hdrop := Text.dropLiteral?_append_of_not_infix hlacks hafter (List.cons_ne_nil c before)
    rw [List.cons_append, afterComment?, ← List.cons_append, hdrop]
    exact ih (Text.not_infix_of_cons hlacks)

/-- Whether a text ends with a given one and has only a part of another one before it. -/
def EndsWithin (before after t : Text) : Prop := ∃ part, part <:+ before ∧ t = part ++ after

/-- No modifier runs into the keyword of a class. -/
theorem not_tail_prefix_class : ∀ modifier ∈ modifiers, ∀ part ∈ modifier.tails, part ≠ [] →
    ¬ part <+: Text.ofString "cl" ∧ ¬ Text.ofString "cl" <+: part := by decide

theorem EndsWithin.dropLiteral? {modifier before after t rest : Text} (hmodifier : modifier ∈ modifiers)
    (ht : EndsWithin before ("class" ++ after) t) (h : dropLiteral? modifier t = some rest) :
    EndsWithin before ("class" ++ after) rest := by
  obtain ⟨part, hpart, rfl⟩ := ht
  rcases List.append_eq_append_iff.1 (Text.eq_append_of_dropLiteral? h) with
    ⟨tail, hmodifier', hclass⟩ | ⟨left, rfl, rfl⟩
  · cases tail with
    | nil => exact ⟨[], List.nil_suffix, hclass.symm⟩
    | cons c tail =>
      have hkeyword : c :: tail <+: Text.ofString "class" ++ after := ⟨rest, hclass.symm⟩
      have hcl : Text.ofString "cl" <+: Text.ofString "class" ++ after := ⟨"ass" ++ after, rfl⟩
      have htail : c :: tail ∈ modifier.tails := (List.mem_tails _ _).2 ⟨part, hmodifier'.symm⟩
      obtain ⟨hnot, hnot'⟩ := not_tail_prefix_class modifier hmodifier _ htail (List.cons_ne_nil c tail)
      rcases List.prefix_or_prefix_of_prefix hkeyword hcl with h | h
      · exact absurd h hnot
      · exact absurd h hnot'
  · exact ⟨left, (List.suffix_append modifier left).trans hpart, rfl⟩

theorem EndsWithin.dropWhile {p : CodePoint → Bool} {before after t : Text} (hp : p (.scalar 'c') = false)
    (ht : EndsWithin before ("class" ++ after) t) : EndsWithin before ("class" ++ after) (t.dropWhile p) := by
  obtain ⟨part, hpart, rfl⟩ := ht
  exact ⟨part.dropWhile p, (List.dropWhile_suffix p).trans hpart, Text.dropWhile_append_cons hp part _⟩

theorem EndsWithin.dropBlanks? {before after t rest : Text} (ht : EndsWithin before ("class" ++ after) t)
    (h : dropBlanks? t = some rest) : EndsWithin before ("class" ++ after) rest := by
  obtain ⟨part, hpart, rfl⟩ := ht
  cases part with
  | nil => cases h
  | cons c part =>
    rw [List.cons_append, Source.dropBlanks?] at h
    split at h
    · obtain rfl := Option.some.inj h
      have hlater : EndsWithin before ("class" ++ after) (part ++ ("class" ++ after)) :=
        ⟨part, (List.suffix_cons c part).trans hpart, rfl⟩
      exact hlater.dropWhile (by decide)
    · cases h

theorem EndsWithin.dropModifiers {before after t : Text} (ht : EndsWithin before ("class" ++ after) t)
    (fuel : Nat) : EndsWithin before ("class" ++ after) (dropModifiers fuel t) := by
  induction fuel generalizing t with
  | zero => exact ht
  | succ fuel ih =>
    rw [Source.dropModifiers]
    cases hdrop : dropModifier? t with
    | none => exact ht
    | some rest =>
      obtain ⟨modifier, hmodifier, hrest⟩ := List.exists_of_findSome?_eq_some hdrop
      obtain ⟨later, hlater, hblanks⟩ := Option.bind_eq_some_iff.1 hrest
      exact ih ((ht.dropLiteral? hmodifier hlater).dropBlanks? hblanks)

theorem isBlankRun_space : Text.IsBlankRun " " := ⟨by decide, by decide⟩

section ClassLine

variable {name body : Text} (hname : name.IsWordRun) (hbody : ∀ c, body.head? = some c → c.isWord = false)

include hname hbody in
/-- A line that ends with the class declares no other one. -/
theorem eq_of_classAt? {before line found : Text} (hlacks : ¬ Text.ofString "class" <:+: before)
    (hline : EndsWithin before ("class" ++ (" " ++ (name ++ body))) line) (h : classAt? line = some found) :
    found = name := by
  have hindented : EndsWithin before ("class" ++ (" " ++ (name ++ body)))
      (line.dropWhile fun c => c = .scalar ' ' ∨ c = .scalar '\t') := hline.dropWhile (by decide)
  obtain ⟨part, hpart, hmodifiers⟩ := hindented.dropModifiers
    (line.dropWhile fun c => c = .scalar ' ' ∨ c = .scalar '\t').length
  have hnil : part = [] := by
    by_contra hne
    have hpart' : ¬ Text.ofString "class" <:+: part := fun hin => hlacks (hin.trans hpart.isInfix)
    have hhead : (Text.ofString "class" ++ (" " ++ (name ++ body))).head? = some (.scalar 'c') := rfl
    have hafter : ∀ d ∈ (Text.ofString "class").tail,
        (Text.ofString "class" ++ (" " ++ (name ++ body))).head? ≠ some d := by
      rw [hhead]
      decide
    rw [classAt?, hmodifiers, Text.dropLiteral?_append_of_not_infix hpart' hafter hne] at h
    cases h
  rw [hnil, List.nil_append] at hmodifiers
  exact Option.some.inj (h.symm.trans (classAt?_of_dropModifiers isBlankRun_space hname hbody rfl hmodifiers))

end ClassLine

namespace Declaration

variable (d : Declaration)

/-- The line of the class, up to its name. -/
def line : ClassLine where
  indentation := d.indentation
  mods := d.modifiers.map fun modifier => (modifier, Text.ofString " ")
  separation := " "
  name := d.name
  indentation_chars := d.indentation_chars
  mods_mem := List.forall_mem_map.2 fun modifier hmodifier => ⟨d.modifiers_mem modifier hmodifier, isBlankRun_space⟩
  separation_run := isBlankRun_space
  name_run := d.name_word

theorem classLine_eq : d.classLine = d.line.text ++ d.body := by
  simp only [classLine, ClassLine.text, line, spacedModifiers, List.flatMap_map]
  rfl

theorem classAt?_classLine : classAt? d.classLine = some d.name :=
  d.line.classAt?_eq ⟨d.body, d.classLine_eq, d.body_ends⟩

theorem lacks_class_modifierText {mods : List Text} (hmods : ∀ m ∈ mods, m ∈ Source.modifiers) :
    ¬ Text.ofString "class" <:+: modifierText mods := by
  induction mods with
  | nil => decide
  | cons m mods ih =>
    obtain ⟨hm, hmods⟩ := List.forall_mem_cons.1 hmods
    have hlacks : ∀ modifier ∈ Source.modifiers, ¬ Text.ofString "class" <:+: modifier := by decide
    intro hin
    rw [modifierText, List.flatMap_cons, List.append_assoc] at hin
    rcases Text.infix_append_cons (by decide) hin with h | h
    · exact hlacks m hm h
    · exact ih hmods h

theorem lacks_class_indentation {indentation t : Text}
    (hindentation : ∀ c ∈ indentation, c = .scalar ' ' ∨ c = .scalar '\t')
    (ht : ¬ Text.ofString "class" <:+: t) : ¬ Text.ofString "class" <:+: indentation ++ t := by
  induction indentation with
  | nil => exact ht
  | cons c indentation ih =>
    obtain ⟨hc, hindentation⟩ := List.forall_mem_cons.1 hindentation
    have hmem : c ∉ Text.ofString "class" := by
      rcases hc with rfl | rfl <;> decide
    intro hin
    have hfront : Text.ofString "class" <:+: [] ++ c :: (indentation ++ t) := hin
    rcases Text.infix_append_cons hmem hfront with h | h
    · exact absurd h (by decide)
    · exact ih hindentation h

/-- Whatever lines stand before that of the class, none of them declares another one. -/
theorem classOnLine?_gap {gap : Text} (hbrace : CodePoint.scalar '{' ∉ gap)
    (hlacks : ¬ Text.ofString "class" <:+: gap) : classOnLine? (gap ++ ("\n" ++ d.classLine)) = some d.name := by
  induction gap with
  | nil =>
    have hcons : Text.ofString "\n" ++ d.classLine = CodePoint.scalar '\n' :: d.classLine := rfl
    rw [List.nil_append, hcons, classOnLine?, if_neg (by decide), if_pos rfl, d.classAt?_classLine]
  | cons c gap ih =>
    rw [List.mem_cons, not_or] at hbrace
    have hmore := ih hbrace.2 (Text.not_infix_of_cons hlacks)
    rw [List.cons_append, classOnLine?, if_neg (Ne.symm hbrace.1), hmore]
    split
    · have hbefore : ¬ Text.ofString "class" <:+:
          gap ++ "\n" ++ (d.indentation ++ modifierText d.modifiers) := by
        intro hin
        rw [List.append_assoc] at hin
        rcases Text.infix_append_cons (by decide) hin with h | h
        · exact Text.not_infix_of_cons hlacks h
        · exact lacks_class_indentation d.indentation_chars (lacks_class_modifierText d.modifiers_mem) h
      have hline : EndsWithin (gap ++ "\n" ++ (d.indentation ++ modifierText d.modifiers))
          ("class" ++ (" " ++ (d.name ++ d.body))) (gap ++ ("\n" ++ d.classLine)) := by
        refine ⟨_, List.suffix_rfl, ?_⟩
        simp only [classLine, List.append_assoc]
      cases hclass : classAt? (gap ++ ("\n" ++ d.classLine)) with
      | none => rfl
      | some found => rw [eq_of_classAt? d.name_word d.body_ends hbefore hline hclass]
    · rfl

theorem declaredClass?_afterMarker : declaredClass? d.afterMarker = some d.name := by
  have hsplit : d.afterMarker = d.remark ++ ("*/" ++ (d.gap ++ ("\n" ++ d.classLine))) := by
    simp only [afterMarker, List.append_assoc]
  have hcomment := afterComment?_append d.remark_lacks (d.gap ++ ("\n" ++ d.classLine))
  have hclass := d.classOnLine?_gap d.gap_lacks_brace d.gap_lacks_class
  rw [hsplit, declaredClass?, hcomment]
  simp only [Option.bind_eq_bind, Option.bind_some, hclass]

theorem nextMarker?_afterNamespace : nextMarker? d.afterNamespace = some (d.categories, d.afterMarker) := by
  have hmarker := markerAt?_append d.categories_ne_nil d.categories_chars d.afterMarker
  have hcomment := markerInComment?_append d.description_lacks_end d.description_lacks_marker rfl hmarker
  have hsplit : d.afterNamespace = d.preamble ++ ("/**" ++ (d.description ++
      ("@module " ++ d.categories ++ "\n" ++ d.afterMarker))) := by
    simp only [afterNamespace, List.append_assoc]
  rw [hsplit]
  exact nextMarker?_append d.preamble_lacks hcomment

theorem declaredNamespace?_text : declaredNamespace? d.text = some (d.enclosing, d.afterNamespace) := by
  have hat := namespaceAt?_append d.path_ne_nil d.path_words d.afterNamespace
  have hsplit : d.text = d.opening ++ ("namespace " ++ d.enclosing ++ ";" ++ d.afterNamespace) := by
    simp only [text, List.append_assoc]
  rw [hsplit, declaredNamespace?]
  exact namespaceFrom?_append d.opening_lacks d.opening_ends rfl hat fun _ => rfl

end Declaration

theorem parseAll_trim (t : Text) : Category.parseAll t.trim = Category.parseAll t := by
  rw [Category.parseAll, Category.parseAll, Text.trim_trim]

/-- A source text of the usual form declares the module that its parts name. -/
theorem declaredModule?_text (d : Declaration) : declaredModule? d.text = some d.module := by
  have hmarkers := markers_of_some d.nextMarker?_afterNamespace
  have hclass := d.declaredClass?_afterMarker
  rw [declaredModule?, d.declaredNamespace?_text]
  simp only [Option.bind_eq_bind, Option.bind_some, hmarkers, firstModule?, List.findSome?_cons, hclass,
    Option.map_some, parseAll_trim]
  rfl

/-- A class with modifiers in a namespace of two words, behind comments that mark nothing. -/
def invoices : Declaration where
  opening := "<?php\n/* no names */\n"
  path := ["Billing", "Core"]
  preamble := "\n// @module none\n"
  description := "\n * Handles invoices.\n * "
  categories := "svc(priority=1) admin "
  remark := "\n * @module late\n "
  gap := "\nabstract"
  indentation := "\t"
  modifiers := ["final", "readonly"]
  name := "Invoices"
  body := "\nclass Other"
  opening_lacks := by decide
  opening_ends := by decide
  path_ne_nil := by decide
  path_words := by
    have hwords : ∀ word ∈ [Text.ofString "Billing", Text.ofString "Core"],
        word ≠ [] ∧ ∀ c ∈ word, c.isWord := by decide
    exact fun word hword => ⟨(hwords word hword).1, (hwords word hword).2⟩
  preamble_lacks := by decide
  description_lacks_end := by decide
  description_lacks_marker := by decide
  categories_ne_nil := by decide
  categories_chars := by decide
  remark_lacks := by decide
  gap_lacks_brace := by decide
  gap_lacks_class := by decide
  indentation_chars := by decide
  modifiers_mem := by decide
  name_word := ⟨by decide, by decide⟩
  body_ends := by decide

theorem declaredModule?_invoices : declaredModule? invoices.text =
    some ⟨"Billing\\Core", "Invoices", [⟨"svc", [⟨some "priority", "1"⟩]⟩, .bare "admin"]⟩ := by
  have hmodule : invoices.module =
      ⟨"Billing\\Core", "Invoices", [⟨"svc", [⟨some "priority", "1"⟩]⟩, .bare "admin"]⟩ := by decide +kernel
  rw [declaredModule?_text invoices, hmodule]

end ModuleCatalog.Source
