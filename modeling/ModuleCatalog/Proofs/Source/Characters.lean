import ModuleCatalog.Proofs.Text.Literal
import ModuleCatalog.Source.Declared

/-!
# Characters of declared modules

The texts of a module that a source text declares hold word characters, backslashes and characters of category
text, and no others. A semicolon is none of these, and a text without one declares nothing. So a text that is made
of the texts of modules and of other characters than semicolons declares no module.
-/

namespace ModuleCatalog

/-! ## Texts of a module -/

def Attribute.texts (a : Attribute) : List Text := a.key.toList ++ [a.value]

def Category.texts (c : Category) : List Text := c.name :: c.attributes.flatMap Attribute.texts

/-- The texts of which a module consists. -/
def Module.texts (m : Module) : List Text :=
  m.enclosing :: m.typeName :: m.categories.flatMap Category.texts

/-! ## Category text -/

section Reading

variable {t piece before after : Text} {c : CodePoint}

theorem Text.trim_subset (t : Text) : t.trim ⊆ t := by
  have hleft : t.trimLeft ⊆ t := (List.dropWhile_sublist _).subset
  have hright : t.trimLeft.reverse.dropWhile CodePoint.isBlank ⊆ t.trimLeft.reverse :=
    (List.dropWhile_sublist _).subset
  intro c hc
  apply hleft
  rw [← List.mem_reverse]
  apply hright
  rwa [← List.mem_reverse]

theorem Text.subset_of_mem_splitOn {separator : CodePoint} (h : piece ∈ Text.splitOn separator t) :
    piece ⊆ t := by
  fun_induction Text.splitOn separator t generalizing piece with
  | case1 => simp_all
  | case2 t ih =>
    rcases List.mem_cons.1 h with rfl | h
    · exact List.nil_subset _
    · exact List.Subset.trans (ih h) (List.subset_cons_self ..)
  | case3 c t hc hnil ih => exact absurd hnil (Text.splitOn_ne_nil separator t)
  | case4 c t hc first rest hsplit ih =>
    rcases List.mem_cons.1 h with rfl | h
    · exact List.cons_subset_cons c (ih (hsplit ▸ List.mem_cons_self))
    · exact List.Subset.trans (ih (hsplit ▸ List.mem_cons_of_mem _ h)) (List.subset_cons_self ..)

theorem Text.subset_of_splitFirst? {separator : CodePoint}
    (h : Text.splitFirst? separator t = some (before, after)) : before ⊆ t ∧ after ⊆ t := by
  induction t generalizing before with
  | nil => cases h
  | cons c t ih =>
    rw [Text.splitFirst?] at h
    split at h
    · obtain ⟨rfl, rfl⟩ := Prod.mk.inj (Option.some.inj h)
      exact ⟨List.nil_subset _, List.subset_cons_self ..⟩
    · obtain ⟨⟨before', after'⟩, hsplit, heq⟩ := Option.map_eq_some_iff.1 h
      obtain ⟨rfl, rfl⟩ := Prod.mk.inj heq
      obtain ⟨hbefore, hafter⟩ := ih hsplit
      exact ⟨List.cons_subset_cons c hbefore, List.Subset.trans hafter (List.subset_cons_self ..)⟩

theorem Text.subset_of_beforeLast? {last : CodePoint} (h : Text.beforeLast? last t = some before) :
    before ⊆ t := by
  induction t generalizing before with
  | nil => cases h
  | cons c t ih =>
    rw [Text.beforeLast?] at h
    split at h
    · next found hfound =>
      obtain rfl := Option.some.inj h
      exact List.cons_subset_cons c (ih hfound)
    · split at h
      · obtain rfl := Option.some.inj h
        exact List.nil_subset _
      · cases h

theorem Attribute.subset_of_mem_texts_parse (h : piece ∈ (Attribute.parse t).texts) : piece ⊆ t := by
  unfold Attribute.parse at h
  split at h
  · obtain rfl : piece = t.trim := by simpa [Attribute.texts] using h
    exact Text.trim_subset t
  · next key value hsplit =>
    obtain ⟨hkey, hvalue⟩ := Text.subset_of_splitFirst? hsplit
    have hpiece : piece = key.trim ∨ piece = value.trim := by simpa [Attribute.texts] using h
    rcases hpiece with rfl | rfl
    · exact List.Subset.trans (Text.trim_subset key) hkey
    · exact List.Subset.trans (Text.trim_subset value) hvalue

theorem Category.subset_of_callAt? {name arguments : Text} (h : Category.callAt? t = some (name, arguments)) :
    name ⊆ t ∧ arguments ⊆ t := by
  unfold Category.callAt? at h
  split at h
  · cases h
  · next name' rest hne hspan =>
    obtain ⟨arguments', harguments, heq⟩ := Option.map_eq_some_iff.1 h
    obtain ⟨rfl, rfl⟩ := Prod.mk.inj heq
    obtain ⟨hname, hrest⟩ := Prod.mk.inj hspan
    have hbefore : arguments' ⊆ rest := List.Subset.trans (Text.subset_of_beforeLast? harguments)
      (List.takeWhile_sublist _).subset
    have htail : rest ⊆ t := by
      have hdrop : CodePoint.scalar '(' :: rest ⊆ t := hrest ▸ (List.dropWhile_sublist _).subset
      exact List.Subset.trans (List.subset_cons_self ..) hdrop
    exact ⟨hname ▸ (List.takeWhile_sublist _).subset, List.Subset.trans hbefore htail⟩
  · cases h

theorem Category.subset_of_findCall? {name arguments : Text}
    (h : Category.findCall? t = some (name, arguments)) : name ⊆ t ∧ arguments ⊆ t := by
  induction t with
  | nil => cases h
  | cons c t ih =>
    rw [Category.findCall?] at h
    split at h
    · next call hcall => exact Category.subset_of_callAt? (hcall.trans h)
    · exact (ih h).imp (List.Subset.trans · (List.subset_cons_self ..))
        (List.Subset.trans · (List.subset_cons_self ..))

theorem Category.subset_of_mem_texts_parse (h : piece ∈ (Category.parse t).texts) : piece ⊆ t := by
  unfold Category.parse at h
  split at h
  · obtain rfl : piece = t := by simpa [Category.texts, Category.bare] using h
    exact List.Subset.refl piece
  · next name arguments hcall =>
    obtain ⟨hname, harguments⟩ := Category.subset_of_findCall? hcall
    rcases List.mem_cons.1 h with rfl | h
    · exact hname
    · obtain ⟨a, ha, hpiece⟩ := List.mem_flatMap.1 h
      obtain ⟨argument, hargument, rfl⟩ := List.mem_map.1 ha
      exact List.Subset.trans (Attribute.subset_of_mem_texts_parse hpiece)
        (List.Subset.trans (Text.subset_of_mem_splitOn hargument) harguments)

/-- Categories hold no character that their text does not hold. -/
theorem Category.subset_of_mem_parseAll {category : Category} (hcategory : category ∈ Category.parseAll t)
    (h : piece ∈ category.texts) : piece ⊆ t := by
  obtain ⟨entry, hentry, rfl⟩ := List.mem_map.1 hcategory
  calc piece ⊆ entry := Category.subset_of_mem_texts_parse h
    _ ⊆ t.trim := Text.subset_of_mem_splitOn hentry
    _ ⊆ t := Text.trim_subset t

end Reading

namespace Source

/-! ## Declared modules -/

/-- The characters of the texts of modules. -/
def isModuleChar (c : CodePoint) : Bool := isMarkerChar c || c = .scalar '\\'

theorem isModuleChar_of_isWord {c : CodePoint} (h : c.isWord) : isModuleChar c := by
  simp [isModuleChar, isMarkerChar, h]

section Spans

variable {t name path rest categories : Text}

theorem isWord_of_spanWord (h : Text.spanWord t = (name, rest)) : ∀ c ∈ name, c.isWord := by
  intro c hc
  rw [← (Prod.mk.inj h).1] at hc
  exact List.mem_takeWhile_imp hc

/-- What a path of words holds, and what it leaves. -/
theorem subset_of_spanPath {fuel : Nat} (h : spanPath fuel t = (path, rest)) :
    (∀ c ∈ path, isModuleChar c) ∧ rest ⊆ t := by
  fun_induction spanPath fuel t generalizing path rest with
  | case3 fuel first found after hne hspan more last hmore ih =>
    obtain ⟨rfl, rfl⟩ := Prod.mk.inj h
    obtain ⟨hpath, hrest⟩ := ih hmore
    have hbackslash : isModuleChar (.scalar '\\') := by decide
    have hafter : after ⊆ first := (Prod.mk.inj hspan).2 ▸ (List.dropWhile_sublist _).subset
    refine ⟨List.forall_mem_append.2 ⟨List.forall_mem_cons.2 ⟨hbackslash, fun c hc => ?_⟩, hpath⟩, ?_⟩
    · exact isModuleChar_of_isWord (isWord_of_spanWord hspan c hc)
    · exact List.Subset.trans hrest (List.Subset.trans hafter (List.subset_cons_self ..))
  | _ =>
    obtain ⟨rfl, rfl⟩ := Prod.mk.inj h
    exact ⟨List.forall_mem_nil _, List.Subset.refl _⟩

theorem subset_of_namespacePath? (h : namespacePath? t = some (path, rest)) :
    (∀ c ∈ path, isModuleChar c) ∧ rest ⊆ t := by
  unfold namespacePath? at h
  split at h
  · cases h
  · next word after hne hspan =>
    obtain ⟨rfl, rfl⟩ := Prod.mk.inj (Option.some.inj h)
    obtain ⟨hpath, hrest⟩ := subset_of_spanPath (rfl : spanPath after.length after = _)
    have hafter : after ⊆ t := (Prod.mk.inj hspan).2 ▸ (List.dropWhile_sublist _).subset
    refine ⟨List.forall_mem_append.2 ⟨fun c hc => ?_, hpath⟩, List.Subset.trans hrest hafter⟩
    exact isModuleChar_of_isWord (isWord_of_spanWord hspan c hc)

theorem subset_of_dropBlanks? (h : dropBlanks? t = some rest) : rest ⊆ t := by
  unfold dropBlanks? at h
  split at h
  · split at h
    · obtain rfl := Option.some.inj h
      exact List.Subset.trans (List.dropWhile_sublist _).subset (List.subset_cons_self ..)
    · cases h
  · cases h

/-- A namespace declaration at the front of a text names words, and has a semicolon. -/
theorem namespaceAt?_eq_some (h : namespaceAt? t = some (path, rest)) :
    (∀ c ∈ path, isModuleChar c) ∧ CodePoint.scalar ';' ∈ t := by
  simp only [namespaceAt?, Option.bind_eq_bind, Option.bind_eq_some_iff] at h
  obtain ⟨behind, hbehind, words, hwords, ⟨found, after⟩, hpath, last, hlast, heq⟩ := h
  obtain ⟨rfl, rfl⟩ := Prod.mk.inj (Option.some.inj heq)
  obtain ⟨hchars, hafter⟩ := subset_of_namespacePath? hpath
  refine ⟨hchars, ?_⟩
  have hsemicolon : CodePoint.scalar ';' ∈ after.trimLeft := by
    rw [Text.eq_append_of_dropLiteral? hlast]
    exact List.mem_append_left _ List.mem_cons_self
  have hbehind' : behind ⊆ t := by
    rw [Text.eq_append_of_dropLiteral? hbehind]
    exact List.subset_append_right ..
  apply hbehind'
  apply subset_of_dropBlanks? hwords
  apply hafter
  exact (List.dropWhile_sublist _).subset hsemicolon

theorem exists_of_namespaceFrom? {afterWord : Bool} (h : namespaceFrom? afterWord t = some (path, rest)) :
    ∃ later ⊆ t, namespaceAt? later = some (path, rest) := by
  induction t generalizing afterWord with
  | nil => cases h
  | cons c t ih =>
    rw [namespaceFrom?] at h
    split at h
    · next found hfound =>
      obtain rfl := Option.some.inj h
      split at hfound
      · cases hfound
      · exact ⟨_, List.Subset.refl _, hfound⟩
    · obtain ⟨later, hlater, hat⟩ := ih h
      exact ⟨later, List.Subset.trans hlater (List.subset_cons_self ..), hat⟩

theorem declaredNamespace?_eq_some (h : declaredNamespace? t = some (path, rest)) :
    (∀ c ∈ path, isModuleChar c) ∧ CodePoint.scalar ';' ∈ t := by
  obtain ⟨later, hlater, hat⟩ := exists_of_namespaceFrom? h
  exact (namespaceAt?_eq_some hat).imp_right (hlater ·)

theorem isWord_of_classAt? (h : classAt? t = some name) : ∀ c ∈ name, c.isWord := by
  simp only [classAt?, Option.bind_eq_bind, Option.bind_eq_some_iff] at h
  obtain ⟨_, -, _, -, hname⟩ := h
  split at hname
  · cases hname
  · next found after hne hspan =>
    obtain rfl := Option.some.inj hname
    exact isWord_of_spanWord hspan

theorem isWord_of_classOnLine? (h : classOnLine? t = some name) : ∀ c ∈ name, c.isWord := by
  fun_induction classOnLine? t with
  | case1 => cases h
  | case2 => cases h
  | case3 t found hfound _ => exact isWord_of_classAt? (hfound.trans h)
  | case4 t _ hnone ih => exact ih h
  | case5 c t hbrace hline ih => exact ih h

theorem isWord_of_declaredClass? (h : declaredClass? t = some name) : ∀ c ∈ name, c.isWord := by
  obtain ⟨after, -, h⟩ := Option.bind_eq_some_iff.1 h
  split at h
  · next found hfound => exact isWord_of_classOnLine? (hfound.trans h)
  · exact isWord_of_classAt? h

theorem isMarkerChar_of_markerAt? (h : markerAt? t = some (categories, rest)) :
    ∀ c ∈ categories, isMarkerChar c := by
  simp only [markerAt?, Option.bind_eq_bind, Option.bind_eq_some_iff] at h
  obtain ⟨body, -, h⟩ := h
  split at h
  · cases h
  · next hne =>
    obtain ⟨_, -, heq⟩ := Option.bind_eq_some_iff.1 h
    obtain ⟨rfl, -⟩ := Prod.mk.inj (Option.some.inj heq)
    exact fun c hc => List.mem_takeWhile_imp hc

theorem isMarkerChar_of_markerInComment? (h : markerInComment? t = some (categories, rest)) :
    ∀ c ∈ categories, isMarkerChar c := by
  fun_induction markerInComment? t with
  | case1 => cases h
  | case2 c t marker hmarker => exact isMarkerChar_of_markerAt? (hmarker.trans h)
  | case3 => cases h
  | case4 c t hnone hend ih => exact ih h

theorem isMarkerChar_of_nextMarker? (h : nextMarker? t = some (categories, rest)) :
    ∀ c ∈ categories, isMarkerChar c := by
  fun_induction nextMarker? t with
  | case1 => cases h
  | case2 c t marker hmarker =>
    obtain ⟨comment, -, hcomment⟩ := Option.bind_eq_some_iff.1 (hmarker.trans h)
    exact isMarkerChar_of_markerInComment? hcomment
  | case3 c t hnone ih => exact ih h

theorem isMarkerChar_of_mem_markers (h : (categories, rest) ∈ markers t) : ∀ c ∈ categories, isMarkerChar c := by
  fun_induction markers t with
  | case1 => cases h
  | case2 t found after hnext ih =>
    rcases List.mem_cons.1 h with heq | h
    · obtain ⟨rfl, rfl⟩ := Prod.mk.inj heq
      exact fun c hc => isMarkerChar_of_nextMarker? hnext c (Text.trim_subset found hc)
    · exact ih h

end Spans

/-- The texts of a declared module hold characters of modules only. -/
theorem isModuleChar_of_declaredModule? {t : Text} {m : Module} (h : declaredModule? t = some m) :
    ∀ piece ∈ m.texts, ∀ c ∈ piece, isModuleChar c := by
  obtain ⟨⟨enclosing, rest⟩, hspace, h⟩ := Option.bind_eq_some_iff.1 h
  obtain ⟨⟨categories, after⟩, hmarker, h⟩ := List.exists_of_findSome?_eq_some h
  obtain ⟨typeName, hclass, rfl⟩ := Option.map_eq_some_iff.1 h
  refine List.forall_mem_cons.2 ⟨(declaredNamespace?_eq_some hspace).1, List.forall_mem_cons.2 ⟨?_, ?_⟩⟩
  · exact fun c hc => isModuleChar_of_isWord (isWord_of_declaredClass? hclass c hc)
  · intro piece hpiece c hc
    obtain ⟨category, hcategory, hpiece⟩ := List.mem_flatMap.1 hpiece
    have hmem : c ∈ categories := Category.subset_of_mem_parseAll hcategory hpiece hc
    simp [isModuleChar, isMarkerChar_of_mem_markers hmarker c hmem]

/-- A text without a semicolon declares no module. -/
theorem declaredModule?_of_not_mem {t : Text} (h : CodePoint.scalar ';' ∉ t) : declaredModule? t = none := by
  cases hspace : declaredNamespace? t with
  | none => rw [declaredModule?, hspace, Option.bind_eq_bind, Option.bind_none]
  | some found => exact absurd (declaredNamespace?_eq_some hspace).2 h

end Source

end ModuleCatalog
