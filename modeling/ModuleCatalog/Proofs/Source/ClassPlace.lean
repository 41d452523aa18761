import ModuleCatalog.Proofs.Source.BlockComment
import ModuleCatalog.Proofs.Source.ClassLine

/-!
# Where the class of a comment is declared

A class may be declared right behind the end of a comment or on one of the lines that begin further on, as long as
no opening brace stands in between. The class that is found is that of the first such line; only if no line
declares one, it is the class right behind the comment. So the first declaration is passed over if it stands on the
line on which the comment ends and another one follows it.
-/

namespace ModuleCatalog.Source

open Text (StandsAt)

/-! ## Places of declarations -/

/-- Whether a class is declared from a place of a text on. -/
def DeclaresAt (t : Text) (place : Nat) (name : Text) : Prop :=
  ∃ d : ClassLine, d.name = name ∧ d.Begins (t.drop place)

/-- The places behind the end of a comment at which a class is declared: the end itself and the beginnings of the
lines further on, before any opening brace. -/
def declarationPlaces (t : Text) (stop : Nat) : Set Nat :=
  {place | stop ≤ place ∧ (place = stop ∨ stop < place ∧ t[place - 1]? = some (.scalar '\n')) ∧
    (∀ i, stop ≤ i → i < place → t[i]? ≠ some (.scalar '{')) ∧ ∃ name, DeclaresAt t place name}

/-- The places of declarations on the lines that begin behind the end of a comment. -/
def linePlaces (t : Text) (stop : Nat) : Set Nat := declarationPlaces t stop \ {stop}

/-- The class that belongs to a comment which ends at a place. -/
inductive BelongingClass (t : Text) (stop : Nat) (name : Text) : Prop
  | onLine {place} (hplace : IsLeast (linePlaces t stop) place) (hname : DeclaresAt t place name)
  | beside (honly : declarationPlaces t stop = {stop}) (hname : DeclaresAt t stop name)

section Places

variable {t name : Text} {stop place : Nat}

theorem mem_linePlaces_iff : place ∈ linePlaces t stop ↔ stop < place ∧ t[place - 1]? = some (.scalar '\n') ∧
    (∀ i, stop ≤ i → i < place → t[i]? ≠ some (.scalar '{')) ∧ ∃ name, DeclaresAt t place name := by
  constructor
  · rintro ⟨⟨-, hline, hrest⟩, hne⟩
    obtain ⟨hlt, hbreak⟩ := hline.resolve_left hne
    exact ⟨hlt, hbreak, hrest⟩
  · rintro ⟨hlt, hbreak, hrest⟩
    exact ⟨⟨Nat.le_of_lt hlt, .inr ⟨hlt, hbreak⟩, hrest⟩, Nat.ne_of_gt hlt⟩

theorem mem_declarationPlaces_self_iff : stop ∈ declarationPlaces t stop ↔ ∃ name, DeclaresAt t stop name := by
  constructor
  · rintro ⟨-, -, -, hname⟩
    exact hname
  · intro hname
    exact ⟨Nat.le_refl stop, .inl rfl, fun i hi hlt => absurd hi (Nat.not_le.2 hlt), hname⟩

theorem classAt?_drop_eq_some_iff : classAt? (t.drop place) = some name ↔ DeclaresAt t place name :=
  classAt?_eq_some_iff

theorem linePlaces_eq_empty_of_le (h : t.length ≤ stop) : linePlaces t stop = ∅ := by
  rw [Set.eq_empty_iff_forall_notMem]
  intro place hplace
  obtain ⟨hlt, hbreak, -⟩ := mem_linePlaces_iff.1 hplace
  rw [List.getElem?_eq_none (by omega)] at hbreak
  cases hbreak

theorem linePlaces_eq_empty_of_brace (h : t[stop]? = some (.scalar '{')) : linePlaces t stop = ∅ := by
  rw [Set.eq_empty_iff_forall_notMem]
  intro place hplace
  obtain ⟨hlt, -, hbrace, -⟩ := mem_linePlaces_iff.1 hplace
  exact hbrace stop (Nat.le_refl stop) hlt h

theorem linePlaces_succ (hbrace : t[stop]? ≠ some (.scalar '{')) (hnext : stop + 1 ∉ linePlaces t stop) :
    linePlaces t (stop + 1) = linePlaces t stop := by
  ext place
  constructor
  · intro hplace
    obtain ⟨hlt, hbreak, hbraces, hname⟩ := mem_linePlaces_iff.1 hplace
    refine mem_linePlaces_iff.2 ⟨Nat.lt_of_succ_lt hlt, hbreak, fun i hi hilt => ?_, hname⟩
    rcases Nat.eq_or_lt_of_le hi with rfl | hi
    · exact hbrace
    · exact hbraces i hi hilt
  · intro hplace
    have hne : place ≠ stop + 1 := fun heq => hnext (heq ▸ hplace)
    obtain ⟨hlt, hbreak, hbraces, hname⟩ := mem_linePlaces_iff.1 hplace
    refine mem_linePlaces_iff.2 ⟨?_, hbreak, fun i hi => hbraces i (Nat.le_of_succ_le hi), hname⟩
    exact Nat.lt_of_le_of_ne hlt hne.symm

end Places

/-! ## Searching -/

section Search

variable {t : Text}

/-- The search for the end of a comment finds the first one. -/
theorem afterComment?_drop (t : Text) (start : Nat) :
    (commentClosings t start = ∅ ∧ afterComment? (t.drop start) = none) ∨
      ∃ closing, IsLeast (commentClosings t start) closing ∧
        afterComment? (t.drop start) = some (t.drop (closing + 2)) := by
  induction hrest : t.drop start generalizing start with
  | nil =>
    refine .inl ⟨?_, rfl⟩
    rw [Set.eq_empty_iff_forall_notMem]
    rintro closing ⟨hle, hstands⟩
    have hlength : closing + 2 ≤ t.length := hstands.le_length (List.cons_ne_nil _ _)
    have hstart := List.drop_eq_nil_iff.1 hrest
    omega
  | cons c rest ih =>
    have hnext := ih (start + 1) (Text.drop_succ_of_drop_eq_cons hrest)
    rw [afterComment?, ← hrest]
    by_cases hstands : t.StandsAt "*/" start
    · have hdrop : Text.dropLiteral? "*/" (t.drop start) = some (t.drop (start + 2)) :=
        Text.dropLiteral?_drop_eq_some_iff.2 ⟨hstands, rfl⟩
      rw [hdrop]
      exact .inr ⟨start, ⟨⟨Nat.le_refl start, hstands⟩, fun _ h => h.1⟩, rfl⟩
    · have hsame : commentClosings t (start + 1) = commentClosings t start := by
        ext closing
        constructor
        · rintro ⟨hle, hat⟩
          exact ⟨Nat.le_of_succ_le hle, hat⟩
        · rintro ⟨hle, hat⟩
          refine ⟨Nat.lt_of_le_of_ne hle ?_, hat⟩
          rintro rfl
          exact hstands hat
      rw [Text.dropLiteral?_drop_eq_none_iff.2 hstands]
      rwa [hsame] at hnext

/-- The search for the line of a class finds the first one. -/
theorem classOnLine?_drop (t : Text) (stop : Nat) :
    (linePlaces t stop = ∅ ∧ classOnLine? (t.drop stop) = none) ∨
      ∃ place name, IsLeast (linePlaces t stop) place ∧ DeclaresAt t place name ∧
        classOnLine? (t.drop stop) = some name := by
  induction hrest : t.drop stop generalizing stop with
  | nil => exact .inl ⟨linePlaces_eq_empty_of_le (List.drop_eq_nil_iff.1 hrest), rfl⟩
  | cons c rest ih =>
    have hdrop : t.drop (stop + 1) = rest := Text.drop_succ_of_drop_eq_cons hrest
    have hchar : t[stop]? = some c := Text.getElem?_of_drop_eq_cons hrest
    have hnext := ih (stop + 1) hdrop
    rw [classOnLine?]
    by_cases hbrace : c = .scalar '{'
    · rw [if_pos hbrace]
      exact .inl ⟨linePlaces_eq_empty_of_brace (hbrace ▸ hchar), rfl⟩
    rw [if_neg hbrace]
    have hbrace' : t[stop]? ≠ some (.scalar '{') := fun h => hbrace (Option.some.inj (hchar.symm.trans h))
    by_cases hbreak : c = .scalar '\n'
    · rw [if_pos hbreak]
      cases hclass : classAt? rest with
      | some name =>
        have hname : DeclaresAt t (stop + 1) name := classAt?_drop_eq_some_iff.1 (hdrop ▸ hclass)
        have hmem : stop + 1 ∈ linePlaces t stop := by
          refine mem_linePlaces_iff.2 ⟨Nat.lt_succ_self stop, hbreak ▸ hchar, fun i hi hlt => ?_, name, hname⟩
          rwa [Nat.le_antisymm (Nat.le_of_lt_succ hlt) hi]
        exact .inr ⟨stop + 1, name, ⟨hmem, fun i hi => (mem_linePlaces_iff.1 hi).1⟩, hname, rfl⟩
      | none =>
        have hnot : stop + 1 ∉ linePlaces t stop := by
          intro hmem
          obtain ⟨-, -, -, name, hname⟩ := mem_linePlaces_iff.1 hmem
          rw [← classAt?_drop_eq_some_iff, hdrop, hclass] at hname
          cases hname
        rwa [linePlaces_succ hbrace' hnot] at hnext
    · have hnot : stop + 1 ∉ linePlaces t stop := by
        intro hmem
        have hline := (mem_linePlaces_iff.1 hmem).2.1
        exact hbreak (Option.some.inj (hchar.symm.trans hline))
      rw [if_neg hbreak]
      rwa [linePlaces_succ hbrace' hnot] at hnext

/-- Behind the end of a comment its class is found, if it has one. -/
theorem declaredClass?_of_afterComment? {u name : Text} {stop : Nat} (h : afterComment? u = some (t.drop stop)) :
    declaredClass? u = some name ↔ BelongingClass t stop name := by
  rw [declaredClass?, h, Option.bind_eq_bind, Option.bind_some]
  rcases classOnLine?_drop t stop with ⟨hempty, hnone⟩ | ⟨place, found, hplace, hfound, hsome⟩
  · rw [hnone, classAt?_drop_eq_some_iff]
    constructor
    · intro hname
      refine .beside (Set.eq_singleton_iff_unique_mem.2 ⟨mem_declarationPlaces_self_iff.2 ⟨name, hname⟩, ?_⟩) hname
      intro place hplace
      by_contra hne
      exact Set.notMem_empty place (hempty ▸ ⟨hplace, hne⟩)
    · rintro (⟨hplace, -⟩ | ⟨-, hname⟩)
      · exact absurd hplace.1 (hempty ▸ Set.notMem_empty _)
      · exact hname
  · rw [hsome]
    constructor
    · rintro ⟨rfl⟩
      exact .onLine hplace hfound
    · rintro (⟨hplace', hname⟩ | ⟨honly, -⟩)
      · rw [hplace'.unique hplace, ← classAt?_drop_eq_some_iff] at hname
        rw [← classAt?_drop_eq_some_iff.2 hfound, hname]
      · have hline := hplace.1.1
        rw [honly] at hline
        exact absurd hline hplace.1.2

theorem exists_belongingClass {stop : Nat} (h : (declarationPlaces t stop).Nonempty) :
    ∃ name, BelongingClass t stop name := by
  by_cases hlines : (linePlaces t stop).Nonempty
  · obtain ⟨place, hplace⟩ := exists_isLeast hlines
    obtain ⟨name, hname⟩ := hplace.1.1.2.2.2
    exact ⟨name, .onLine hplace hname⟩
  · obtain ⟨place, hplace⟩ := h
    have honly : ∀ other ∈ declarationPlaces t stop, other = stop := by
      intro other hother
      by_contra hne
      exact hlines ⟨other, hother, hne⟩
    obtain rfl := honly place hplace
    obtain ⟨name, hname⟩ := mem_declarationPlaces_self_iff.1 hplace
    exact ⟨name, .beside (Set.eq_singleton_iff_unique_mem.2 ⟨hplace, honly⟩) hname⟩

theorem nonempty_of_belongingClass {stop : Nat} {name : Text} (h : BelongingClass t stop name) :
    (declarationPlaces t stop).Nonempty := by
  cases h with
  | onLine hplace => exact ⟨_, hplace.1.1⟩
  | beside honly => exact ⟨stop, honly ▸ rfl⟩

theorem declaredClass?_drop_eq_some_iff (t : Text) (start : Nat) (name : Text) :
    declaredClass? (t.drop start) = some name ↔
      ∃ closing, IsLeast (commentClosings t start) closing ∧ BelongingClass t (closing + 2) name := by
  rcases afterComment?_drop t start with ⟨hempty, hnone⟩ | ⟨closing, hclosing, hsome⟩
  · rw [declaredClass?, hnone, Option.bind_eq_bind, Option.bind_none]
    constructor
    · intro h
      cases h
    · rintro ⟨closing, hclosing, -⟩
      exact absurd hclosing.1 (hempty ▸ Set.notMem_empty closing)
  · rw [declaredClass?_of_afterComment? hsome]
    constructor
    · intro hname
      exact ⟨closing, hclosing, hname⟩
    · rintro ⟨closing', hclosing', hname⟩
      rwa [hclosing'.unique hclosing] at hname

end Search

/-- The class of a comment is that of the first line behind it which declares one, or else the one right behind it;
it has none if no comment ends or nothing behind its end declares a class. -/
theorem declaredClass?_drop (t : Text) (start : Int) :
    (∀ name, declaredClass? (t.drop start.toNat) = some name ↔
      ∃ closing, IsLeast (commentClosings t start.toNat) closing ∧ BelongingClass t (closing + 2) name) ∧
    (declaredClass? (t.drop start.toNat) = none ↔
      ∀ closing, IsLeast (commentClosings t start.toNat) closing → declarationPlaces t (closing + 2) = ∅) := by
  have hsome := declaredClass?_drop_eq_some_iff t start.toNat
  refine ⟨hsome, fun hnone closing hclosing => ?_, fun hempty => ?_⟩
  · by_contra hne
    obtain ⟨name, hname⟩ := exists_belongingClass (Set.nonempty_iff_ne_empty.2 hne)
    have hfound := (hsome name).2 ⟨closing, hclosing, hname⟩
    rw [hnone] at hfound
    cases hfound
  · cases hclass : declaredClass? (t.drop start.toNat) with
    | none => rfl
    | some name =>
      obtain ⟨closing, hclosing, hname⟩ := (hsome name).1 hclass
      exact absurd (hempty closing hclosing) (nonempty_of_belongingClass hname).ne_empty

/-- A class on the line on which a comment ends, and another one on the next line. -/
def twoClassesText : Text := "*/ class A\nclass B"

/-- The first class behind a comment is not always the one that is found. -/
theorem not_declaredClass?_twoClassesText : ¬ ∀ (t : Text) (start closing place : Nat) (name : Text),
    IsLeast (commentClosings t start) closing → IsLeast (declarationPlaces t (closing + 2)) place →
      DeclaresAt t place name → declaredClass? (t.drop start) = some name := by
  intro h
  have hclosing : IsLeast (commentClosings twoClassesText 0) 0 :=
    ⟨⟨Nat.le_refl 0, by decide⟩, fun place _ => Nat.zero_le place⟩
  have hname : DeclaresAt twoClassesText 2 "A" := classAt?_drop_eq_some_iff.1 (by decide +kernel)
  have hplace : IsLeast (declarationPlaces twoClassesText 2) 2 :=
    ⟨mem_declarationPlaces_self_iff.2 ⟨"A", hname⟩, fun place hplace => hplace.1⟩
  have hfound : declaredClass? (twoClassesText.drop 0) = some (Text.ofString "B") := by decide +kernel
  rw [h twoClassesText 0 0 2 "A" hclosing hplace hname] at hfound
  exact absurd hfound (by decide)

end ModuleCatalog.Source
