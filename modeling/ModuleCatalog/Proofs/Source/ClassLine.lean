import ModuleCatalog.Proofs.Text.Literal
import ModuleCatalog.Source.ClassDeclaration

/-!
# Lines that declare a class

A line declares a class if it consists of indentation, any number of modifiers, the keyword and the name of the
class, with blanks between them, before whatever does not go on with the name. The reader of such a line finds the
name in every one of them, and finds nothing in any other line.
-/

namespace ModuleCatalog

/-- A non-empty run of blanks. -/
structure Text.IsBlankRun (t : Text) : Prop where
  ne_nil : t ≠ []
  isBlank : ∀ c ∈ t, c.isBlank

namespace Source

open Text (IsBlankRun IsWordRun)

/-! ## Blanks and words at the front of a text -/

section Fronts

variable {t rest : Text}

theorem dropBlanks?_eq_some (h : dropBlanks? t = some rest) :
    ∃ blanks : Text, t = blanks ++ rest ∧ blanks.IsBlankRun := by
  unfold dropBlanks? at h
  split at h
  · next c after =>
    split at h
    · next hc =>
      obtain rfl := Option.some.inj h
      refine ⟨c :: after.takeWhile CodePoint.isBlank, ?_, List.cons_ne_nil _ _, ?_⟩
      · rw [List.cons_append, Text.trimLeft, List.takeWhile_append_dropWhile]
      · exact List.forall_mem_cons.2 ⟨hc, fun d hd => List.mem_takeWhile_imp hd⟩
    · cases h
  · cases h

theorem dropBlanks?_append {blanks : Text} (hblanks : blanks.IsBlankRun)
    (hrest : ∀ c, rest.head? = some c → c.isBlank = false) : dropBlanks? (blanks ++ rest) = some rest := by
  obtain ⟨hne, hblanks⟩ := hblanks
  obtain ⟨c, blanks, rfl⟩ := List.exists_cons_of_ne_nil hne
  obtain ⟨hc, hblanks⟩ := List.forall_mem_cons.1 hblanks
  have htrim : Text.trimLeft (blanks ++ rest) = rest := Text.dropWhile_append hblanks hrest
  rw [List.cons_append, dropBlanks?, if_pos hc, htrim]

theorem spanWord_eq {name : Text} (h : Text.spanWord t = (name, rest)) :
    t = name ++ rest ∧ (∀ c ∈ name, c.isWord) ∧ ∀ c, rest.head? = some c → c.isWord = false := by
  obtain ⟨rfl, rfl⟩ := Prod.mk.inj h
  refine ⟨List.takeWhile_append_dropWhile.symm, fun c hc => List.mem_takeWhile_imp hc, fun c hc => ?_⟩
  have hnot := List.head?_dropWhile_not CodePoint.isWord t
  rw [hc] at hnot
  exact Bool.eq_false_iff.2 fun hword => by simp [hword] at hnot

theorem isBlank_of_head?_wordRun {run : Text} (hrun : run.IsWordRun) (rest : Text) :
    ∀ c, (run ++ rest).head? = some c → c.isBlank = false := by
  obtain ⟨first, tail, rfl, hfirst⟩ := hrun.exists_cons
  intro c hc
  rw [← Option.some.inj hc]
  exact CodePoint.isBlank_of_isWord hfirst

end Fronts

/-! ## Modifiers -/

/-- Modifiers with the blanks behind each of them. -/
def spacedModifiers (mods : List (Text × Text)) : Text := mods.flatMap fun m => m.1 ++ m.2

section Modifiers

variable {mods : List (Text × Text)}

theorem isBlank_of_head?_modifier : ∀ modifier ∈ modifiers, ∀ c, modifier.head? = some c → c.isBlank = false := by
  decide

theorem dropModifier?_append {modifier blanks t : Text} (hmodifier : modifier ∈ modifiers)
    (hblanks : blanks.IsBlankRun) (ht : ∀ c, t.head? = some c → c.isBlank = false) :
    dropModifier? (modifier ++ (blanks ++ t)) = some t := by
  have hdrop := dropBlanks?_append hblanks ht
  have habstract : Text.dropLiteral? "abstract" (Text.ofString "final" ++ (blanks ++ t)) = none := rfl
  have habstract' : Text.dropLiteral? "abstract" (Text.ofString "readonly" ++ (blanks ++ t)) = none := rfl
  have hfinal : Text.dropLiteral? "final" (Text.ofString "readonly" ++ (blanks ++ t)) = none := rfl
  simp only [modifiers, List.mem_cons, List.not_mem_nil, or_false] at hmodifier
  rcases hmodifier with rfl | rfl | rfl
  · simp only [dropModifier?, modifiers, List.findSome?_cons, Text.dropLiteral?_append, Option.bind_some, hdrop]
  · simp only [dropModifier?, modifiers, List.findSome?_cons, habstract, Text.dropLiteral?_append,
      Option.bind_none, Option.bind_some, hdrop]
  · simp only [dropModifier?, modifiers, List.findSome?_cons, habstract', hfinal, Text.dropLiteral?_append,
      Option.bind_none, Option.bind_some, hdrop]

theorem dropModifier?_eq_some {t rest : Text} (h : dropModifier? t = some rest) :
    ∃ modifier ∈ modifiers, ∃ blanks : Text, blanks.IsBlankRun ∧ t = modifier ++ blanks ++ rest := by
  obtain ⟨modifier, hmodifier, h⟩ := List.exists_of_findSome?_eq_some h
  obtain ⟨after, hafter, hdrop⟩ := Option.bind_eq_some_iff.1 h
  obtain ⟨blanks, rfl, hblanks⟩ := dropBlanks?_eq_some hdrop
  refine ⟨modifier, hmodifier, blanks, hblanks, ?_⟩
  rw [Text.eq_append_of_dropLiteral? hafter, List.append_assoc]

/-- Neither the modifiers of a class nor its keyword begin with a blank. -/
theorem isBlank_of_head?_spacedModifiers (hmods : ∀ m ∈ mods, m.1 ∈ modifiers) (after : Text) :
    ∀ c, (spacedModifiers mods ++ ("class" ++ after)).head? = some c → c.isBlank = false := by
  intro c hc
  cases mods with
  | nil =>
    rw [← Option.some.inj hc]
    decide
  | cons m mods =>
    have hm := hmods m List.mem_cons_self
    have hne : ∀ modifier ∈ modifiers, modifier ≠ [] := by decide
    have hhead : (spacedModifiers (m :: mods) ++ ("class" ++ after)).head? = m.1.head? := by
      rw [spacedModifiers, List.flatMap_cons, List.append_assoc, List.append_assoc,
        List.head?_append_of_ne_nil _ (hne m.1 hm)]
    exact isBlank_of_head?_modifier m.1 hm c (hhead ▸ hc)

theorem dropModifiers_append (hmods : ∀ m ∈ mods, m.1 ∈ modifiers ∧ m.2.IsBlankRun) (after : Text) {fuel : Nat}
    (hfuel : mods.length ≤ fuel) :
    dropModifiers fuel (spacedModifiers mods ++ ("class" ++ after)) = "class" ++ after := by
  induction mods generalizing fuel with
  | nil =>
    cases fuel with
    | zero => rfl
    | succ fuel => rfl
  | cons m mods ih =>
    obtain ⟨fuel, rfl⟩ := Nat.exists_eq_succ_of_ne_zero (Nat.ne_of_gt (Nat.lt_of_lt_of_le (Nat.succ_pos _) hfuel))
    obtain ⟨⟨hm, hblanks⟩, hmods⟩ := List.forall_mem_cons.1 hmods
    have hstep := dropModifier?_append hm hblanks
      (isBlank_of_head?_spacedModifiers (fun other hother => (hmods other hother).1) after)
    have hsplit : spacedModifiers (m :: mods) ++ ("class" ++ after) =
        m.1 ++ (m.2 ++ (spacedModifiers mods ++ ("class" ++ after))) := by
      simp only [spacedModifiers, List.flatMap_cons, List.append_assoc]
    rw [hsplit, dropModifiers, hstep]
    exact ih hmods (Nat.le_of_succ_le_succ hfuel)

theorem length_le_length_spacedModifiers (hmods : ∀ m ∈ mods, m.1 ∈ modifiers ∧ m.2.IsBlankRun) :
    mods.length ≤ (spacedModifiers mods).length := by
  induction mods with
  | nil => exact Nat.zero_le _
  | cons m mods ih =>
    obtain ⟨⟨-, hblanks⟩, hmods⟩ := List.forall_mem_cons.1 hmods
    have hpositive : 0 < m.2.length := List.length_pos_iff.2 hblanks.ne_nil
    have hrest := ih hmods
    rw [spacedModifiers] at hrest ⊢
    rw [List.flatMap_cons, List.length_append, List.length_append, List.length_cons]
    omega

/-- What is dropped are modifiers. -/
theorem exists_spacedModifiers_eq (fuel : Nat) (t : Text) :
    ∃ mods : List (Text × Text), (∀ m ∈ mods, m.1 ∈ modifiers ∧ m.2.IsBlankRun) ∧
      t = spacedModifiers mods ++ dropModifiers fuel t := by
  induction fuel generalizing t with
  | zero => exact ⟨[], List.forall_mem_nil _, rfl⟩
  | succ fuel ih =>
    rw [dropModifiers]
    split
    · exact ⟨[], List.forall_mem_nil _, rfl⟩
    · next rest hrest =>
      obtain ⟨modifier, hmodifier, blanks, hblanks, rfl⟩ := dropModifier?_eq_some hrest
      obtain ⟨mods, hmods, hsplit⟩ := ih rest
      refine ⟨(modifier, blanks) :: mods, List.forall_mem_cons.2 ⟨⟨hmodifier, hblanks⟩, hmods⟩, ?_⟩
      calc modifier ++ blanks ++ rest = modifier ++ blanks ++ (spacedModifiers mods ++ dropModifiers fuel rest) := by
            rw [← hsplit]
        _ = spacedModifiers ((modifier, blanks) :: mods) ++ dropModifiers fuel rest := by
            simp only [spacedModifiers, List.flatMap_cons, List.append_assoc]

end Modifiers

/-! ## Lines -/

theorem classAt?_of_dropModifiers {line indented separation name body : Text} (hseparation : separation.IsBlankRun)
    (hname : name.IsWordRun) (hbody : ∀ c, body.head? = some c → c.isWord = false)
    (hindented : line.dropWhile (fun c => c = .scalar ' ' ∨ c = .scalar '\t') = indented)
    (hclass : dropModifiers indented.length indented = "class" ++ (separation ++ (name ++ body))) :
    classAt? line = some name := by
  have hblanks := dropBlanks?_append hseparation (isBlank_of_head?_wordRun hname body)
  have hspan := Text.spanWord_append hname hbody
  obtain ⟨c, tail, rfl, -⟩ := hname.exists_cons
  simp only [classAt?, hindented, hclass, Text.dropLiteral?_append, Option.bind_eq_bind, Option.bind_some, hblanks,
    hspan]

/-- The parts of a line that declares a class, up to the name of the class. -/
structure ClassLine where
  indentation : Text
  /-- The modifiers, each with the blanks behind it. -/
  mods : List (Text × Text)
  separation : Text
  name : Text
  indentation_chars : ∀ c ∈ indentation, c = .scalar ' ' ∨ c = .scalar '\t'
  mods_mem : ∀ m ∈ mods, m.1 ∈ modifiers ∧ m.2.IsBlankRun
  separation_run : separation.IsBlankRun
  name_run : name.IsWordRun

namespace ClassLine

variable (d : ClassLine)

def text : Text := d.indentation ++ spacedModifiers d.mods ++ "class" ++ d.separation ++ d.name

/-- Whether a text begins with the line, and its name does not go on. -/
def Begins (t : Text) : Prop := ∃ body : Text, t = d.text ++ body ∧ ∀ c, body.head? = some c → c.isWord = false

theorem dropWhile_text (body : Text) :
    (d.text ++ body).dropWhile (fun c => c = .scalar ' ' ∨ c = .scalar '\t') =
      spacedModifiers d.mods ++ ("class" ++ (d.separation ++ (d.name ++ body))) := by
  have hsplit : d.text ++ body =
      d.indentation ++ (spacedModifiers d.mods ++ ("class" ++ (d.separation ++ (d.name ++ body)))) := by
    simp only [text, List.append_assoc]
  rw [hsplit]
  apply Text.dropWhile_append
  · intro c hc
    exact decide_eq_true (d.indentation_chars c hc)
  · intro c hc
    have hblank := isBlank_of_head?_spacedModifiers (fun m hm => (d.mods_mem m hm).1) _ c hc
    apply decide_eq_false
    rintro (rfl | rfl)
    · exact absurd hblank (by decide)
    · exact absurd hblank (by decide)

theorem classAt?_eq {t : Text} (h : d.Begins t) : classAt? t = some d.name := by
  obtain ⟨body, rfl, hbody⟩ := h
  apply classAt?_of_dropModifiers d.separation_run d.name_run hbody (d.dropWhile_text body)
  apply dropModifiers_append d.mods_mem
  rw [List.length_append]
  exact Nat.le_add_right_of_le (length_le_length_spacedModifiers d.mods_mem)

end ClassLine

/-- A line is read as the declaration of a class exactly if it is one. -/
theorem classAt?_eq_some_iff {t name : Text} :
    classAt? t = some name ↔ ∃ d : ClassLine, d.name = name ∧ d.Begins t := by
  constructor
  · intro h
    simp only [classAt?, Option.bind_eq_bind, Option.bind_eq_some_iff] at h
    obtain ⟨behind, hbehind, words, hwords, hname⟩ := h
    split at hname
    · cases hname
    · next found body hne hspan =>
      obtain rfl := Option.some.inj hname
      obtain ⟨rfl, hchars, hbody⟩ := spanWord_eq hspan
      obtain ⟨separation, rfl, hseparation⟩ := dropBlanks?_eq_some hwords
      obtain ⟨mods, hmods, hsplit⟩ := exists_spacedModifiers_eq
        (t.dropWhile fun c => c = .scalar ' ' ∨ c = .scalar '\t').length
        (t.dropWhile fun c => c = .scalar ' ' ∨ c = .scalar '\t')
      have hindentation : ∀ c ∈ t.takeWhile (fun c => c = .scalar ' ' ∨ c = .scalar '\t'),
          c = .scalar ' ' ∨ c = .scalar '\t' := by
        intro c hc
        have hchar := List.mem_takeWhile_imp hc
        exact of_decide_eq_true hchar
      refine ⟨⟨_, mods, separation, found, hindentation, hmods, hseparation, ⟨hne, hchars⟩⟩, rfl, body, ?_, hbody⟩
      rw [Text.eq_append_of_dropLiteral? hbehind] at hsplit
      calc t = t.takeWhile (fun c => c = .scalar ' ' ∨ c = .scalar '\t') ++
            t.dropWhile fun c => c = .scalar ' ' ∨ c = .scalar '\t' := List.takeWhile_append_dropWhile.symm
        _ = _ := by
          rw [hsplit]
          simp only [ClassLine.text, List.append_assoc]
  · rintro ⟨d, rfl, hbegins⟩
    exact d.classAt?_eq hbegins

end Source

end ModuleCatalog
