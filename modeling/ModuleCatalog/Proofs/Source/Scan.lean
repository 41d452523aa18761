import Mathlib.Order.Bounds.Basic
import ModuleCatalog.Proofs.Text.Literal
import ModuleCatalog.Source.Marker

/-!
# Where markers stand

The places of a text at which a comment opens and at which it has a marker are said here without a search for
them. A scan takes the first opening behind which there is a marker, and of the markers in that comment the first
one, and goes on behind its line. The markers of a text are those of the scan and no others, their ends grow, and
no marker of a comment is passed over unless one that ends no later is taken.
-/

namespace ModuleCatalog

namespace Text

/-- Whether a literal stands at a place of a text. -/
def StandsAt (t l : Text) (place : Nat) : Prop := l <+: t.drop place

variable {t l rest : Text} {place : Nat}

theorem dropLiteral?_drop_eq_some_iff :
    dropLiteral? l (t.drop place) = some rest ↔ t.StandsAt l place ∧ rest = t.drop (place + l.length) := by
  rw [dropLiteral?_eq_some_iff]
  constructor
  · intro h
    refine ⟨⟨rest, h.symm⟩, ?_⟩
    rw [← List.drop_drop, h, List.drop_left]
  · rintro ⟨⟨after, h⟩, rfl⟩
    rw [← List.drop_drop, ← h, List.drop_left]

theorem dropLiteral?_drop_eq_none_iff : dropLiteral? l (t.drop place) = none ↔ ¬ t.StandsAt l place :=
  dropLiteral?_eq_none_iff

theorem StandsAt.le_length (h : t.StandsAt l place) (hne : l ≠ []) : place + l.length ≤ t.length := by
  have hlength : l.length ≤ (t.drop place).length := List.IsPrefix.length_le h
  have hpositive : 0 < l.length := List.length_pos_iff.2 hne
  rw [List.length_drop] at hlength
  omega

end Text

namespace Source

open Text (StandsAt dropLiteral?)

/-! ## Lines and places of markers -/

/-- Whether the line of a marker stands at a place of a text: the keyword, category text as far as its characters
go, and a line end, up to the place at which the next line begins. -/
structure MarkerLine (t : Text) (place : Nat) (categories : Text) (stop : Nat) : Prop where
  keyword : t.StandsAt "@module " place
  categories_eq : categories = (t.drop (place + 8)).takeWhile isMarkerChar
  categories_ne_nil : categories ≠ []
  lineEnd : ∃ lineEnd : Text, (lineEnd = "\n" ∨ lineEnd = "\r\n") ∧
    t.StandsAt lineEnd (place + 8 + categories.length) ∧ stop = place + 8 + categories.length + lineEnd.length

/-- The places of markers in a comment whose text begins at a place of a text, up to the end of the comment. -/
def markerPlaces (t : Text) (inside : Nat) : Set Nat :=
  {place | inside ≤ place ∧ (∀ i, inside ≤ i → i < place → ¬ t.StandsAt "*/" i) ∧
    ∃ categories stop, MarkerLine t place categories stop}

/-- The places, from one on, at which a comment with a marker opens. -/
def openings (t : Text) (start : Nat) : Set Nat :=
  {opening | start ≤ opening ∧ t.StandsAt "/**" opening ∧ (markerPlaces t (opening + 3)).Nonempty}

/-- The markers of a text from a place on, each with its trimmed category text and the place behind its line. -/
inductive Scan (t : Text) : Nat → List (Text × Nat) → Prop
  | done {start} (h : openings t start = ∅) : Scan t start []
  | more {start opening place stop categories found} (hopening : IsLeast (openings t start) opening)
      (hplace : IsLeast (markerPlaces t (opening + 3)) place) (hline : MarkerLine t place categories stop)
      (hfound : Scan t stop found) : Scan t start ((categories.trim, stop) :: found)

section Lines

variable {t categories rest : Text} {place stop : Nat}

theorem dropLineEnd?_eq_some_iff {u : Text} :
    dropLineEnd? u = some rest ↔ ∃ lineEnd : Text, (lineEnd = "\n" ∨ lineEnd = "\r\n") ∧ u = lineEnd ++ rest := by
  constructor
  · intro h
    unfold dropLineEnd? at h
    split at h
    · exact ⟨"\n", .inl rfl, by rw [← Option.some.inj h]; rfl⟩
    · exact ⟨"\r\n", .inr rfl, by rw [← Option.some.inj h]; rfl⟩
    · cases h
  · rintro ⟨lineEnd, rfl | rfl, rfl⟩
    · rfl
    · rfl

theorem drop_length_takeWhile (p : CodePoint → Bool) (u : Text) : u.drop (u.takeWhile p).length = u.dropWhile p :=
  calc u.drop (u.takeWhile p).length
      = (u.takeWhile p ++ u.dropWhile p).drop (u.takeWhile p).length := by rw [List.takeWhile_append_dropWhile]
    _ = u.dropWhile p := List.drop_left

/-- Behind the keyword there is category text and a line end. -/
theorem markerAt?_append_eq_some_iff {body : Text} :
    markerAt? ("@module " ++ body) = some (categories, rest) ↔ categories = body.takeWhile isMarkerChar ∧
      categories ≠ [] ∧ dropLineEnd? (body.drop categories.length) = some rest := by
  rw [markerAt?, Text.dropLiteral?_append, Option.bind_eq_bind, Option.bind_some]
  split
  · next hnil =>
    constructor
    · intro h
      cases h
    · rintro ⟨heq, hne, -⟩
      exact absurd (heq.trans hnil) hne
  · next hne =>
    rw [Option.bind_eq_some_iff]
    constructor
    · rintro ⟨after, hafter, heq⟩
      obtain ⟨rfl, rfl⟩ := Prod.mk.inj (Option.some.inj heq)
      exact ⟨rfl, hne, by rwa [drop_length_takeWhile]⟩
    · rintro ⟨rfl, -, hafter⟩
      rw [drop_length_takeWhile] at hafter
      exact ⟨rest, hafter, rfl⟩

theorem dropLineEnd?_drop_eq_some_iff :
    dropLineEnd? (t.drop place) = some rest ↔ ∃ lineEnd : Text, (lineEnd = "\n" ∨ lineEnd = "\r\n") ∧
      t.StandsAt lineEnd place ∧ rest = t.drop (place + lineEnd.length) := by
  simp only [dropLineEnd?_eq_some_iff, ← Text.dropLiteral?_drop_eq_some_iff, Text.dropLiteral?_eq_some_iff]

/-- Reading a marker finds the line that stands at its place. -/
theorem markerAt?_drop_eq_some_iff :
    markerAt? (t.drop place) = some (categories, rest) ↔
      ∃ stop, MarkerLine t place categories stop ∧ rest = t.drop stop := by
  by_cases hkeyword : t.StandsAt "@module " place
  · have hsplit : t.drop place = "@module " ++ t.drop (place + 8) :=
      Text.eq_append_of_dropLiteral? (Text.dropLiteral?_drop_eq_some_iff.2 ⟨hkeyword, rfl⟩)
    rw [hsplit, markerAt?_append_eq_some_iff, List.drop_drop, dropLineEnd?_drop_eq_some_iff]
    constructor
    · rintro ⟨hcategories, hne, lineEnd, hend, hstands, hrest⟩
      exact ⟨_, ⟨hkeyword, hcategories, hne, lineEnd, hend, hstands, rfl⟩, hrest⟩
    · rintro ⟨stop, ⟨-, hcategories, hne, lineEnd, hend, hstands, rfl⟩, hrest⟩
      exact ⟨hcategories, hne, lineEnd, hend, hstands, hrest⟩
  · have hnone := Text.dropLiteral?_drop_eq_none_iff.2 hkeyword
    constructor
    · intro h
      rw [markerAt?, hnone] at h
      cases h
    · rintro ⟨stop, hline, -⟩
      exact absurd hline.keyword hkeyword

theorem markerAt?_drop_eq_none_iff :
    markerAt? (t.drop place) = none ↔ ∀ categories stop, ¬ MarkerLine t place categories stop := by
  constructor
  · intro hnone categories stop hline
    have hsome := markerAt?_drop_eq_some_iff.2 ⟨stop, hline, rfl⟩
    rw [hnone] at hsome
    cases hsome
  · intro hlines
    cases hmarker : markerAt? (t.drop place) with
    | none => rfl
    | some marker =>
      obtain ⟨stop, hline, -⟩ := markerAt?_drop_eq_some_iff.1 hmarker
      exact absurd hline (hlines _ stop)

end Lines

/-! ## Searching -/

section Search

variable {t : Text} {inside start : Nat}

theorem markerPlaces_eq_empty_of_le (h : t.length ≤ inside) : markerPlaces t inside = ∅ := by
  rw [Set.eq_empty_iff_forall_notMem]
  rintro place ⟨hplace, -, categories, stop, hline⟩
  have hlength : place + 8 ≤ t.length := hline.keyword.le_length (List.cons_ne_nil _ _)
  omega

theorem markerPlaces_eq_empty_of_closed (hline : ∀ categories stop, ¬ MarkerLine t inside categories stop)
    (hclosed : t.StandsAt "*/" inside) : markerPlaces t inside = ∅ := by
  rw [Set.eq_empty_iff_forall_notMem]
  rintro place ⟨hplace, hopen, categories, stop, hat⟩
  rcases Nat.eq_or_lt_of_le hplace with rfl | hlt
  · exact hline categories stop hat
  · exact hopen inside (Nat.le_refl _) hlt hclosed

theorem markerPlaces_succ (hline : ∀ categories stop, ¬ MarkerLine t inside categories stop)
    (hopen : ¬ t.StandsAt "*/" inside) : markerPlaces t (inside + 1) = markerPlaces t inside := by
  ext place
  constructor
  · rintro ⟨hplace, hbefore, hat⟩
    refine ⟨Nat.le_of_succ_le hplace, fun i hi hlt => ?_, hat⟩
    rcases Nat.eq_or_lt_of_le hi with rfl | hi
    · exact hopen
    · exact hbefore i hi hlt
  · rintro ⟨hplace, hbefore, categories, stop, hat⟩
    have hne : inside ≠ place := by
      rintro rfl
      exact hline categories stop hat
    exact ⟨Nat.lt_of_le_of_ne hplace hne, fun i hi => hbefore i (Nat.le_of_succ_le hi), categories, stop, hat⟩

/-- The search in a comment finds the first place of a marker, if there is one. -/
theorem markerInComment?_drop (t : Text) (inside : Nat) :
    (markerPlaces t inside = ∅ ∧ markerInComment? (t.drop inside) = none) ∨
      ∃ place categories stop, IsLeast (markerPlaces t inside) place ∧ MarkerLine t place categories stop ∧
        markerInComment? (t.drop inside) = some (categories, t.drop stop) := by
  induction hrest : t.drop inside generalizing inside with
  | nil => exact .inl ⟨markerPlaces_eq_empty_of_le (List.drop_eq_nil_iff.1 hrest), rfl⟩
  | cons c rest ih =>
    have hnext := ih (inside + 1) (Text.drop_succ_of_drop_eq_cons hrest)
    rw [markerInComment?, ← hrest]
    cases hmarker : markerAt? (t.drop inside) with
    | some marker =>
      obtain ⟨stop, hline, hstop⟩ := markerAt?_drop_eq_some_iff.1 hmarker
      have hleast : IsLeast (markerPlaces t inside) inside :=
        ⟨⟨Nat.le_refl _, fun i hi hlt => absurd hi (Nat.not_le.2 hlt), _, stop, hline⟩, fun _ h => h.1⟩
      exact .inr ⟨inside, marker.1, stop, hleast, hline, by rw [← hstop]⟩
    | none =>
      have hline := markerAt?_drop_eq_none_iff.1 hmarker
      by_cases hclosed : t.StandsAt "*/" inside
      · have hstarts := Text.startsWith_iff.2 hclosed
        exact .inl ⟨markerPlaces_eq_empty_of_closed hline hclosed, if_pos hstarts⟩
      · have hstarts : ¬ Text.startsWith (t.drop inside) "*/" := mt Text.startsWith_iff.1 hclosed
        simp only [if_neg hstarts]
        rwa [markerPlaces_succ hline hclosed] at hnext

theorem openings_eq_empty_of_le (h : t.length ≤ start) : openings t start = ∅ := by
  rw [Set.eq_empty_iff_forall_notMem]
  rintro opening ⟨hopening, hstands, -⟩
  have hlength : opening + 3 ≤ t.length := hstands.le_length (List.cons_ne_nil _ _)
  omega

theorem openings_succ (h : t.StandsAt "/**" start → markerPlaces t (start + 3) = ∅) :
    openings t (start + 1) = openings t start := by
  ext opening
  constructor
  · rintro ⟨hopening, hstands⟩
    exact ⟨Nat.le_of_succ_le hopening, hstands⟩
  · rintro ⟨hopening, hstands, hplaces⟩
    have hne : start ≠ opening := by
      rintro rfl
      rw [h hstands] at hplaces
      exact Set.not_nonempty_empty hplaces
    exact ⟨Nat.lt_of_le_of_ne hopening hne, hstands, hplaces⟩

/-- The search for a comment with a marker finds the first one, and the first marker in it. -/
theorem nextMarker?_drop (t : Text) (start : Nat) :
    (openings t start = ∅ ∧ nextMarker? (t.drop start) = none) ∨
      ∃ opening place categories stop, IsLeast (openings t start) opening ∧
        IsLeast (markerPlaces t (opening + 3)) place ∧ MarkerLine t place categories stop ∧
        nextMarker? (t.drop start) = some (categories, t.drop stop) := by
  induction hrest : t.drop start generalizing start with
  | nil => exact .inl ⟨openings_eq_empty_of_le (List.drop_eq_nil_iff.1 hrest), rfl⟩
  | cons c rest ih =>
    have hnext := ih (start + 1) (Text.drop_succ_of_drop_eq_cons hrest)
    rw [nextMarker?, ← hrest]
    by_cases hstands : t.StandsAt "/**" start
    · have hopen : dropLiteral? "/**" (t.drop start) = some (t.drop (start + 3)) :=
        Text.dropLiteral?_drop_eq_some_iff.2 ⟨hstands, rfl⟩
      rw [hopen, Option.bind_some]
      rcases markerInComment?_drop t (start + 3) with
        ⟨hempty, hnone⟩ | ⟨place, categories, stop, hplace, hline, hmarker⟩
      · rw [hnone]
        rwa [openings_succ fun _ => hempty] at hnext
      · have hleast : IsLeast (openings t start) start :=
          ⟨⟨Nat.le_refl _, hstands, place, hplace.1⟩, fun _ h => h.1⟩
        exact .inr ⟨start, place, categories, stop, hleast, hplace, hline, by rw [hmarker]⟩
    · rw [Text.dropLiteral?_drop_eq_none_iff.2 hstands, Option.bind_none]
      rwa [openings_succ fun h => absurd h hstands] at hnext

end Search

/-! ## Scans -/

section Scans

variable {t categories : Text} {place stop start : Nat} {found : List (Text × Nat)}

namespace MarkerLine

theorem lt (h : MarkerLine t place categories stop) : place < stop := by
  obtain ⟨lineEnd, -, -, rfl⟩ := h.lineEnd
  omega

theorem le_length (h : MarkerLine t place categories stop) : stop ≤ t.length := by
  obtain ⟨lineEnd, hend, hstands, rfl⟩ := h.lineEnd
  apply hstands.le_length
  rcases hend with rfl | rfl
  · exact List.cons_ne_nil _ _
  · exact List.cons_ne_nil _ _

theorem unique {categories' : Text} {stop' : Nat} (h : MarkerLine t place categories stop)
    (h' : MarkerLine t place categories' stop') : categories = categories' ∧ stop = stop' := by
  have hcategories : categories = categories' := h.categories_eq.trans h'.categories_eq.symm
  obtain ⟨lineEnd, hend, hstands, rfl⟩ := h.lineEnd
  obtain ⟨lineEnd', hend', hstands', rfl⟩ := h'.lineEnd
  rw [← hcategories] at hstands' ⊢
  have hprefix : lineEnd <+: lineEnd' ∨ lineEnd' <+: lineEnd := List.prefix_or_prefix_of_prefix hstands hstands'
  have heq : lineEnd = lineEnd' := by
    rcases hend with rfl | rfl <;> rcases hend' with rfl | rfl
    · rfl
    · exact absurd hprefix (by decide)
    · exact absurd hprefix (by decide)
    · rfl
  exact ⟨rfl, by rw [heq]⟩

/-- What the line of a marker holds behind its first character. -/
theorem exists_drop_succ_eq (h : MarkerLine t place categories stop) :
    ∃ inner : Text, t.drop (place + 1) = inner ++ t.drop stop ∧ place + 1 + inner.length = stop ∧
      CodePoint.scalar '@' ∉ inner := by
  obtain ⟨lineEnd, hend, hstands, rfl⟩ := h.lineEnd
  have hkeyword : t.drop place = "@module " ++ t.drop (place + 8) :=
    Text.eq_append_of_dropLiteral? (Text.dropLiteral?_drop_eq_some_iff.2 ⟨h.keyword, rfl⟩)
  have hcategories : t.drop (place + 8) = categories ++ t.drop (place + 8 + categories.length) :=
    calc t.drop (place + 8)
        = categories ++ (t.drop (place + 8)).dropWhile isMarkerChar := by
          rw [h.categories_eq, List.takeWhile_append_dropWhile]
      _ = categories ++ t.drop (place + 8 + categories.length) := by
          rw [← drop_length_takeWhile, ← h.categories_eq, List.drop_drop]
  have hline := Text.eq_append_of_dropLiteral? (Text.dropLiteral?_drop_eq_some_iff.2 ⟨hstands, rfl⟩)
  refine ⟨"module " ++ categories ++ lineEnd, ?_, ?_, ?_⟩
  · have hsucc : t.drop (place + 1) = "module " ++ t.drop (place + 8) := Text.drop_succ_of_drop_eq_cons hkeyword
    rw [hsucc, hcategories, hline, List.append_assoc, List.append_assoc]
  · have hlength : ("module " : Text).length = 7 := rfl
    rw [List.length_append, List.length_append, hlength]
    omega
  · have hchars : ∀ c ∈ categories, isMarkerChar c := by
      rw [h.categories_eq]
      exact fun c hc => List.mem_takeWhile_imp hc
    rw [List.mem_append, List.mem_append]
    rintro ((hmem | hmem) | hmem)
    · exact absurd hmem (by decide)
    · exact absurd (hchars _ hmem) (by decide)
    · rcases hend with rfl | rfl
      · exact absurd hmem (by decide)
      · exact absurd hmem (by decide)

/-- No line of a marker begins inside another one. -/
theorem stop_le {place' stop' : Nat} {categories' : Text} (h : MarkerLine t place categories stop)
    (h' : MarkerLine t place' categories' stop') (hlt : place < place') : stop ≤ place' := by
  by_contra hinside
  obtain ⟨inner, hinner, hlength, hnot⟩ := h.exists_drop_succ_eq
  obtain ⟨rest, hrest⟩ := h'.keyword
  have hdrop : t.drop place' = inner.drop (place' - (place + 1)) ++ t.drop stop := by
    rw [← List.drop_append_of_le_length (by omega), ← hinner, List.drop_drop]
    congr 1
    omega
  have hhead : (inner.drop (place' - (place + 1)) ++ t.drop stop).head? = some (CodePoint.scalar '@') := by
    rw [← hdrop, ← hrest]
    rfl
  have hne : inner.drop (place' - (place + 1)) ≠ [] := by
    rw [Ne, List.drop_eq_nil_iff]
    omega
  rw [List.head?_append_of_ne_nil _ hne] at hhead
  exact hnot (List.mem_of_mem_drop (List.mem_of_head? hhead))

end MarkerLine

theorem scan_markers (t : Text) (start : Nat) :
    Scan t start ((markers (t.drop start)).map fun m => (m.1, t.length - m.2.length)) := by
  induction hlength : t.length - start using Nat.strong_induction_on generalizing start with
  | h length ih =>
    rcases nextMarker?_drop t start with
      ⟨hempty, hnone⟩ | ⟨opening, place, categories, stop, hopening, hplace, hline, hmarker⟩
    · rw [markers_of_none hnone]
      exact .done hempty
    · have hbegin := hopening.1.1
      have hinside := hplace.1.1
      have hlt := hline.lt
      have hle := hline.le_length
      have hstop : t.length - (t.drop stop).length = stop := by
        rw [List.length_drop]
        omega
      rw [markers_of_some hmarker, List.map_cons, hstop]
      exact .more hopening hplace hline (ih (t.length - stop) (by omega) stop rfl)

namespace Scan

theorem unique (h : Scan t start found) {found' : List (Text × Nat)} (h' : Scan t start found') :
    found = found' := by
  induction h generalizing found' with
  | done hempty =>
    cases h' with
    | done => rfl
    | more hopening => exact absurd hopening.1 (hempty ▸ Set.notMem_empty _)
  | more hopening hplace hline hfound ih =>
    cases h' with
    | done hempty => exact absurd hopening.1 (hempty ▸ Set.notMem_empty _)
    | more hopening' hplace' hline' hfound' =>
      obtain rfl := hopening.unique hopening'
      obtain rfl := hplace.unique hplace'
      obtain ⟨rfl, rfl⟩ := hline.unique hline'
      rw [ih hfound']

theorem lt_of_mem (h : Scan t start found) : ∀ m ∈ found, start < m.2 := by
  induction h with
  | done => exact List.forall_mem_nil _
  | more hopening hplace hline hfound ih =>
    have hbegin := hopening.1.1
    have hinside := hplace.1.1
    have hlt := hline.lt
    refine List.forall_mem_cons.2 ⟨by omega, fun m hm => ?_⟩
    have hlater := ih m hm
    omega

/-- The ends of markers grow. -/
theorem pairwise_lt (h : Scan t start found) : found.Pairwise fun m n => m.2 < n.2 := by
  induction h with
  | done => exact .nil
  | more hopening hplace hline hfound ih => exact .cons hfound.lt_of_mem ih

/-- A marker is passed over only for one that ends no later and is not behind the opening of its comment. -/
theorem exists_of_markerLine (h : Scan t start found) {opening : Nat} (hopening : opening ∈ openings t start)
    (hplace : place ∈ markerPlaces t (opening + 3)) (hline : MarkerLine t place categories stop) :
    ∃ m ∈ found, opening < m.2 ∧ m.2 ≤ stop := by
  induction h with
  | done hempty => exact absurd hopening (hempty ▸ Set.notMem_empty _)
  | @more start₀ opening₀ place₀ stop₀ categories₀ found hopening₀ hplace₀ hline₀ hfound ih =>
    by_cases hlater : stop₀ ≤ opening
    · obtain ⟨m, hm, hends⟩ := ih ⟨hlater, hopening.2⟩
      exact ⟨m, List.mem_cons_of_mem _ hm, hends⟩
    · -- The comment is open at the marker, so the marker is one of the first comment, too.
      have hfirst : opening₀ ≤ opening := hopening₀.2 hopening
      have hbefore : place₀ ≤ place := by
        by_contra hlt
        have hinside := hplace.1
        refine hlt (hplace₀.2 ⟨by omega, fun i hi hend => ?_, hplace.2.2⟩)
        exact hplace₀.1.2.1 i hi (by omega)
      have hstop : stop₀ ≤ stop := by
        rcases Nat.eq_or_lt_of_le hbefore with rfl | hlt
        · exact (hline₀.unique hline).2.le
        · exact Nat.le_trans (hline₀.stop_le hline hlt) hline.lt.le
      exact ⟨_, List.mem_cons_self, Nat.lt_of_not_le hlater, hstop⟩

end Scan

/-- The markers of a text are those of its scan. -/
theorem scan_iff_markersFrom (t : Text) (start : Int) :
    (∀ found, Scan t start.toNat found ↔ found = markersFrom t start) ∧
    ((markersFrom t start).Pairwise fun m n => m.2 < n.2) ∧
    ∀ opening ∈ openings t start.toNat, ∀ place ∈ markerPlaces t (opening + 3), ∀ categories stop,
      MarkerLine t place categories stop → ∃ m ∈ markersFrom t start, opening < m.2 ∧ m.2 ≤ stop := by
  have hscan : Scan t start.toNat (markersFrom t start) := scan_markers t start.toNat
  refine ⟨fun found => ⟨fun h => h.unique hscan, fun h => h ▸ hscan⟩, hscan.pairwise_lt, ?_⟩
  intro opening hopening place hplace categories stop hline
  exact hscan.exists_of_markerLine hopening hplace hline

/-- A malformed marker is passed over for the next one in its comment. -/
example : markersFrom "/** @module a-b\n@module c \r\n*/\n@module d\n" 0 = [(Text.ofString "c", 28)] := by
  decide +kernel

end Scans

end Source

end ModuleCatalog
