import Mathlib.Logic.Relation
import Mathlib.Order.Nat
import ModuleCatalog.Proofs.Source.Scan

/-!
# Block comments

Block comments are read from the beginning of a text. One opens at the first slash with an asterisk behind the
comment before it, and closes at the first asterisk with a slash behind its two opening characters, so that an
empty comment is complete. A marker stands in such a comment, or else the characters that are taken for the opening
of a doc comment belong to the end of a comment: it is the empty comment, or its slash ends one, and no comment
opens from there up to the marker.
-/

namespace ModuleCatalog

instance (t l : Text) (place : Nat) : Decidable (t.StandsAt l place) :=
  inferInstanceAs (Decidable (l <+: t.drop place))

theorem Text.standsAt_pair_iff {t : Text} {place : Nat} {a b : CodePoint} :
    t.StandsAt [a, b] place ↔ t[place]? = some a ∧ t[place + 1]? = some b := by
  rw [Text.StandsAt, List.prefix_iff_getElem?]
  constructor
  · intro h
    simpa using And.intro (h 0 Nat.zero_lt_two) (h 1 Nat.one_lt_two)
  · rintro ⟨hfirst, hsecond⟩ i hi
    rcases Nat.le_one_iff_eq_zero_or_eq_one.1 (Nat.le_of_lt_succ hi) with rfl | rfl
    · simpa using hfirst
    · simpa using hsecond

namespace Source

theorem exists_isLeast {s : Set Nat} (h : s.Nonempty) : ∃ n, IsLeast s n := by
  classical
  exact ⟨_, h.isLeast_natFind⟩

open Text (StandsAt)

/-! ## Comments in order -/

/-- The places, from one on, at which a comment may open. -/
def commentOpenings (t : Text) (start : Nat) : Set Nat :=
  {opening | start ≤ opening ∧ t.StandsAt "/*" opening}

/-- The places, from one on, at which a comment may close. -/
def commentClosings (t : Text) (start : Nat) : Set Nat :=
  {closing | start ≤ closing ∧ t.StandsAt "*/" closing}

/-- Whether the next comment from a place on ends before another one. -/
def NextComment (t : Text) (start stop : Nat) : Prop :=
  ∃ opening closing, IsLeast (commentOpenings t start) opening ∧
    IsLeast (commentClosings t (opening + 2)) closing ∧ stop = closing + 2

/-- Whether a place is the beginning of a text or stands right behind a comment. -/
def BehindComments (t : Text) (place : Nat) : Prop := Relation.ReflTransGen (NextComment t) 0 place

/-- Whether a place is inside a comment, behind its opening characters and before it closes. A comment that never
closes reaches to the end of the text. -/
def InComment (t : Text) (place : Nat) : Prop :=
  ∃ start opening, BehindComments t start ∧ IsLeast (commentOpenings t start) opening ∧
    opening + 2 ≤ place ∧ ∀ closing ∈ commentClosings t (opening + 2), place < closing

section Order

variable {t : Text} {start stop place : Nat}

theorem NextComment.le (h : NextComment t start stop) : start ≤ stop := by
  obtain ⟨opening, closing, hopening, hclosing, rfl⟩ := h
  calc start ≤ opening := hopening.1.1
    _ ≤ opening + 2 := Nat.le_add_right opening 2
    _ ≤ closing := hclosing.1.1
    _ ≤ closing + 2 := Nat.le_add_right closing 2

theorem le_of_reflTransGen (h : Relation.ReflTransGen (NextComment t) start stop) : start ≤ stop := by
  induction h with
  | refl => exact Nat.le_refl start
  | tail _ hnext ih => exact ih.trans hnext.le

theorem rightUnique_nextComment (t : Text) : Relator.RightUnique (NextComment t) := by
  rintro start _ _ ⟨opening, closing, hopening, hclosing, rfl⟩ ⟨opening', closing', hopening', hclosing', rfl⟩
  rw [hopening'.unique hopening] at hclosing'
  rw [hclosing.unique hclosing']

/-- A place is in no comment if none has opened since the last one before it. -/
theorem not_inComment (hstop : BehindComments t stop) (hle : stop ≤ place + 1)
    (hnone : ∀ i, stop ≤ i → i < place → ¬ t.StandsAt "/*" i) : ¬ InComment t place := by
  rintro ⟨start, opening, hstart, hopening, hinside, hopen⟩
  have hbefore : opening < stop := by
    by_contra hlater
    apply hnone opening (Nat.not_lt.1 hlater) _ hopening.1.2
    omega
  have hbegin : start ≤ opening := hopening.1.1
  rcases Relation.ReflTransGen.total_of_right_unique (rightUnique_nextComment t) hstart hstop with hnext | hnext
  · rcases hnext.cases_head with rfl | ⟨next, ⟨opening', closing, hopening', hclosing, rfl⟩, hrest⟩
    · omega
    · -- The comment that holds the place would have closed before the place.
      rw [hopening'.unique hopening] at hclosing
      have hlater : place < closing := hopen closing hclosing.1
      have hend : closing + 2 ≤ stop := le_of_reflTransGen hrest
      omega
  · have hend : stop ≤ start := le_of_reflTransGen hnext
    omega

/-- Up to a place no comment has opened behind the last one, or one has opened and not yet ended. -/
theorem exists_behindComments (t : Text) (place : Nat) :
    ∃ start, BehindComments t start ∧ start ≤ place ∧
      ((∀ i, start ≤ i → i < place → ¬ t.StandsAt "/*" i) ∨
        ∃ opening, IsLeast (commentOpenings t start) opening ∧ opening < place ∧
          ∀ closing ∈ commentClosings t (opening + 2), place < closing + 2) := by
  induction place with
  | zero => exact ⟨0, .refl, Nat.le_refl 0, .inl fun i _ hi => absurd hi (Nat.not_lt_zero i)⟩
  | succ place ih =>
    obtain ⟨start, hstart, hle, hnone | ⟨opening, hopening, hlt, hopen⟩⟩ := ih
    · refine ⟨start, hstart, Nat.le_succ_of_le hle, ?_⟩
      by_cases hat : t.StandsAt "/*" place
      · refine .inr ⟨place, ⟨⟨hle, hat⟩, fun i hi => ?_⟩, Nat.lt_succ_self place, fun closing hclosing => ?_⟩
        · exact Nat.not_lt.1 fun hlt => hnone i hi.1 hlt hi.2
        · have hlater : place + 2 ≤ closing := hclosing.1
          omega
      · refine .inl fun i hi hlt => ?_
        rcases Nat.lt_succ_iff_lt_or_eq.1 hlt with hlt | rfl
        · exact hnone i hi hlt
        · exact hat
    · by_cases hend : ∃ closing ∈ commentClosings t (opening + 2), closing + 2 = place + 1
      · obtain ⟨closing, hclosing, heq⟩ := hend
        have hleast : IsLeast (commentClosings t (opening + 2)) closing := by
          refine ⟨hclosing, fun other hother => ?_⟩
          have hlater := hopen other hother
          omega
        exact ⟨place + 1, hstart.tail ⟨opening, closing, hopening, hleast, heq.symm⟩, Nat.le_refl _,
          .inl fun i hi hlt => absurd hlt (Nat.not_lt.2 hi)⟩
      · refine ⟨start, hstart, Nat.le_succ_of_le hle, .inr ⟨opening, hopening, Nat.lt_succ_of_lt hlt, ?_⟩⟩
        intro closing hclosing
        have hlater := hopen closing hclosing
        have hne : closing + 2 ≠ place + 1 := fun heq => hend ⟨closing, hclosing, heq⟩
        omega

/-- At a place where a comment may open one is open, or opens there. -/
theorem exists_opening_le (hat : t.StandsAt "/*" place) :
    ∃ start opening, BehindComments t start ∧ IsLeast (commentOpenings t start) opening ∧ opening ≤ place ∧
      ∀ closing ∈ commentClosings t (opening + 2), place < closing + 2 := by
  obtain ⟨start, hstart, hle, hnone | ⟨opening, hopening, hlt, hopen⟩⟩ := exists_behindComments t place
  · refine ⟨start, place, hstart, ⟨⟨hle, hat⟩, fun i hi => ?_⟩, Nat.le_refl place, fun closing hclosing => ?_⟩
    · exact Nat.not_lt.1 fun hlt => hnone i hi.1 hlt hi.2
    · have hlater : place + 2 ≤ closing := hclosing.1
      omega
  · exact ⟨start, opening, hstart, hopening, Nat.le_of_lt hlt, hopen⟩

end Order

/-! ## Comments of markers -/

section Markers

variable {t : Text} {opening place stop : Nat}

theorem getElem?_of_standsAt_docOpening (h : t.StandsAt "/**" opening) :
    t[opening]? = some (.scalar '/') ∧ t[opening + 1]? = some (.scalar '*') ∧
      t[opening + 2]? = some (.scalar '*') := by
  have hfirst : t.StandsAt [.scalar '/', .scalar '*'] opening := List.IsPrefix.trans ⟨[.scalar '*'], rfl⟩ h
  obtain ⟨rest, hrest⟩ := h
  have hsecond : t.StandsAt [.scalar '*', .scalar '*'] (opening + 1) :=
    ⟨rest, (Text.drop_succ_of_drop_eq_cons hrest.symm).symm⟩
  exact ⟨(Text.standsAt_pair_iff.1 hfirst).1, Text.standsAt_pair_iff.1 hsecond⟩

theorem getElem?_of_mem_markerPlaces {inside : Nat} (h : place ∈ markerPlaces t inside) :
    t[place]? = some (.scalar '@') := by
  obtain ⟨-, -, categories, stop, hline⟩ := h
  obtain ⟨rest, hrest⟩ := hline.keyword
  exact Text.getElem?_of_drop_eq_cons hrest.symm

/-- No comment that is open at a marker closes before it. -/
theorem lt_closing {inside closing : Nat} (hplace : place ∈ markerPlaces t inside) (hinside : inside ≤ closing)
    (hclosing : t.StandsAt "*/" closing) : place < closing := by
  by_contra hle
  rcases Nat.lt_or_eq_of_le (Nat.not_lt.1 hle) with hlt | rfl
  · exact hplace.2.1 closing hinside hlt hclosing
  · have hchar := (Text.standsAt_pair_iff.1 hclosing).1
    rw [getElem?_of_mem_markerPlaces hplace] at hchar
    exact absurd hchar (by decide)

/-- A marker is in a comment, or one ends with the slash before it or with the one behind its doc opening. -/
theorem inComment_or_behindComments (hopening : t.StandsAt "/**" opening)
    (hplace : place ∈ markerPlaces t (opening + 3)) :
    InComment t place ∨ ∃ stop, (stop = opening + 1 ∨ stop = opening + 4) ∧ BehindComments t stop := by
  obtain ⟨hslash, hstar, hstar'⟩ := getElem?_of_standsAt_docOpening hopening
  have hat : t.StandsAt [.scalar '/', .scalar '*'] opening := Text.standsAt_pair_iff.2 ⟨hslash, hstar⟩
  obtain ⟨start, first, hstart, hfirst, hle, hopen⟩ := exists_opening_le hat
  have hinside : opening + 3 ≤ place := hplace.1
  by_cases hend : ∃ closing ∈ commentClosings t (first + 2), closing < opening + 3
  · right
    obtain ⟨closing, hclosing, hlt⟩ := hend
    obtain ⟨closed, hleast⟩ := exists_isLeast ⟨closing, hclosing⟩
    refine ⟨closed + 2, ?_, hstart.tail ⟨first, closed, hfirst, hleast, rfl⟩⟩
    have hbefore : closed < opening + 3 := (hleast.2 hclosing).trans_lt hlt
    have hafter : opening < closed + 2 := hopen closed hleast.1
    obtain ⟨hchar, hchar'⟩ := Text.standsAt_pair_iff.1 hleast.1.2
    have hne : closed ≠ opening := by
      rintro rfl
      exact absurd (hchar.symm.trans hslash) (by decide)
    have hne' : closed ≠ opening + 1 := by
      rintro rfl
      exact absurd (hchar'.symm.trans hstar') (by decide)
    omega
  · left
    refine ⟨start, first, hstart, hfirst, by omega, fun closing hclosing => ?_⟩
    apply lt_closing hplace _ hclosing.2
    exact Nat.not_lt.1 fun hlt => hend ⟨closing, hclosing, hlt⟩

/-- A comment that opens between the doc opening and a marker holds the marker. -/
theorem inComment_of_standsAt (hplace : place ∈ markerPlaces t (opening + 3)) (hstop : BehindComments t stop)
    (hlt : opening < stop) {i : Nat} (hi : stop ≤ i) (hi' : i < place) (hat : t.StandsAt "/*" i) :
    InComment t place := by
  obtain ⟨first, hleast⟩ := exists_isLeast (⟨i, hi, hat⟩ : (commentOpenings t stop).Nonempty)
  have hbegin : stop ≤ first := hleast.1.1
  have hbefore : first ≤ i := hleast.2 ⟨hi, hat⟩
  have hne : first + 1 ≠ place := by
    rintro rfl
    have hchar := (Text.standsAt_pair_iff.1 hleast.1.2).2
    rw [getElem?_of_mem_markerPlaces hplace] at hchar
    exact absurd hchar (by decide)
  refine ⟨stop, first, hstop, hleast, by omega, fun closing hclosing => ?_⟩
  apply lt_closing hplace _ hclosing.2
  have hlater : first + 2 ≤ closing := hclosing.1
  omega

/-- When the marker behind a doc opening is in a comment. -/
theorem inComment_iff (hopening : t.StandsAt "/**" opening) (hplace : place ∈ markerPlaces t (opening + 3)) :
    InComment t place ↔ ¬ ∃ stop, (stop = opening + 1 ∨ stop = opening + 4) ∧ BehindComments t stop ∧
      ∀ i, stop ≤ i → i < place → ¬ t.StandsAt "/*" i := by
  have hinside : opening + 3 ≤ place := hplace.1
  constructor
  · rintro hin ⟨stop, hstop, hbehind, hnone⟩
    exact not_inComment hbehind (by omega) hnone hin
  · intro hnone
    rcases inComment_or_behindComments hopening hplace with hin | ⟨stop, hstop, hbehind⟩
    · exact hin
    · by_contra hout
      refine hnone ⟨stop, hstop, hbehind, fun i hi hi' hat => hout ?_⟩
      exact inComment_of_standsAt hplace hbehind (by omega) hi hi' hat

theorem Scan.exists_of_mem {start : Nat} {found : List (Text × Nat)} (h : Scan t start found) :
    ∀ m ∈ found, ∃ opening place categories, start ≤ opening ∧ t.StandsAt "/**" opening ∧
      place ∈ markerPlaces t (opening + 3) ∧ MarkerLine t place categories m.2 ∧ m.1 = categories.trim := by
  induction h with
  | done => exact List.forall_mem_nil _
  | @more start opening place stop categories found hopening hplace hline hfound ih =>
    refine List.forall_mem_cons.2 ⟨⟨opening, place, categories, hopening.1.1, hopening.1.2.1, hplace.1, hline, rfl⟩, ?_⟩
    intro m hm
    obtain ⟨opening', place', categories', hstart, hrest⟩ := ih m hm
    refine ⟨opening', place', categories', ?_, hrest⟩
    calc start ≤ opening := hopening.1.1
      _ ≤ opening + 3 := Nat.le_add_right opening 3
      _ ≤ place := hplace.1.1
      _ ≤ stop := hline.lt.le
      _ ≤ opening' := hstart

/-- A marker is in a comment, unless one ends with the slash with which its doc comment is found or with the slash
right behind it, and no other one opens before the marker. -/
theorem inComment_iff_of_mem_markersFrom {start : Int} {m : Text × Nat} (h : m ∈ markersFrom t start) :
    ∃ opening place categories, start.toNat ≤ opening ∧ t.StandsAt "/**" opening ∧
      place ∈ markerPlaces t (opening + 3) ∧ MarkerLine t place categories m.2 ∧ m.1 = categories.trim ∧
      (InComment t place ↔ ¬ ∃ stop, (stop = opening + 1 ∨ stop = opening + 4) ∧ BehindComments t stop ∧
        ∀ i, stop ≤ i → i < place → ¬ t.StandsAt "/*" i) := by
  have hscan : Scan t start.toNat (markersFrom t start) := scan_markers t start.toNat
  obtain ⟨opening, place, categories, hstart, hopening, hplace, hline, hcategories⟩ := hscan.exists_of_mem m h
  exact ⟨opening, place, categories, hstart, hopening, hplace, hline, hcategories, inComment_iff hopening hplace⟩

/-- The slash that ends a comment has two asterisks behind it. -/
def starredText : Text := "/* a */** @module b\n/** @module c\n */"

theorem inComment_iff_of_mem_markersFrom_starredText : (Text.ofString "b", 20) ∈ markersFrom starredText 0 ∧
    ∃ opening place categories, 0 ≤ opening ∧ starredText.StandsAt "/**" opening ∧
      place ∈ markerPlaces starredText (opening + 3) ∧ MarkerLine starredText place categories 20 ∧
      Text.ofString "b" = categories.trim ∧
      (InComment starredText place ↔ ¬ ∃ stop, (stop = opening + 1 ∨ stop = opening + 4) ∧
        BehindComments starredText stop ∧ ∀ i, stop ≤ i → i < place → ¬ starredText.StandsAt "/*" i) := by
  have hmem : (Text.ofString "b", 20) ∈ markersFrom starredText 0 := by decide +kernel
  exact ⟨hmem, inComment_iff_of_mem_markersFrom hmem⟩

/-- An empty comment with a marker behind it. -/
def emptyCommentText : Text := "/**/ @module x\n"

theorem behindComments_emptyCommentText : BehindComments emptyCommentText 4 := by
  apply Relation.ReflTransGen.single
  refine ⟨0, 2, ⟨⟨Nat.le_refl 0, by decide⟩, fun i _ => Nat.zero_le i⟩, ⟨⟨Nat.le_refl 2, by decide⟩, ?_⟩, rfl⟩
  exact fun i hi => hi.1

theorem not_inComment_emptyCommentText : ¬ ∀ (t : Text), ∀ m ∈ markersFrom t 0, ∀ place categories,
    MarkerLine t place categories m.2 → InComment t place := by
  intro h
  have hmem : (Text.ofString "x", 15) ∈ markersFrom emptyCommentText 0 := by decide +kernel
  have hline : MarkerLine emptyCommentText 5 "x" 15 :=
    ⟨by decide, by decide, by decide, "\n", .inl rfl, by decide, by decide⟩
  apply not_inComment behindComments_emptyCommentText (by decide) _ (h _ _ hmem 5 "x" hline)
  intro i hi hlt
  rw [Nat.le_antisymm (Nat.le_of_lt_succ hlt) hi]
  decide

end Markers

end Source

end ModuleCatalog
