import ModuleCatalog.Proofs.Json.RoundTrip
import ModuleCatalog.Proofs.Text.Literal
import ModuleCatalog.Proofs.Text.Unicode

/-!
# Characters of written values

A written value consists of the characters of tokens and escapes, of the blanks of its layout, and of those of
its strings, but for the ones that strings escape. So the surrogates of a written value are those of its strings.
-/

namespace ModuleCatalog.Json

/-! ## Strings of a value -/

mutual

/-- Whether all strings in a value have a property, the names of members among them. -/
def AllStrings (q : Text → Prop) : Json → Prop
  | .string value => q value
  | .array items => AllItems q items
  | .object members => AllMembers q members
  | .null | .boolean _ | .integer _ | .number _ => True

def AllItems (q : Text → Prop) : List Json → Prop
  | [] => True
  | item :: items => AllStrings q item ∧ AllItems q items

def AllMembers (q : Text → Prop) : List (Text × Json) → Prop
  | [] => True
  | (name, value) :: members => q name ∧ AllStrings q value ∧ AllMembers q members

end

theorem allItems_map_iff {α : Type} {q : Text → Prop} {f : α → Json} {xs : List α} :
    AllItems q (xs.map f) ↔ ∀ x ∈ xs, AllStrings q (f x) := by
  induction xs with
  | nil => exact iff_of_true trivial (List.forall_mem_nil _)
  | cons x xs ih => rw [List.map_cons, AllItems, ih, List.forall_mem_cons]

theorem allMembers_map_iff {α : Type} {q : Text → Prop} {f : α → Text × Json} {xs : List α} :
    AllMembers q (xs.map f) ↔ ∀ x ∈ xs, q (f x).1 ∧ AllStrings q (f x).2 := by
  induction xs with
  | nil => exact iff_of_true trivial (List.forall_mem_nil _)
  | cons x xs ih => rw [List.map_cons, AllMembers, ih, List.forall_mem_cons, and_assoc]

section Implied

variable {q r : Text → Prop}

mutual

theorem AllStrings.mono (hqr : ∀ t, q t → r t) : ∀ v : Json, AllStrings q v → AllStrings r v
  | .string value, h => hqr value h
  | .array items, h => AllItems.mono hqr items h
  | .object members, h => AllMembers.mono hqr members h
  | .null, _ | .boolean _, _ | .integer _, _ | .number _, _ => trivial

theorem AllItems.mono (hqr : ∀ t, q t → r t) : ∀ items : List Json, AllItems q items → AllItems r items
  | [], _ => trivial
  | item :: items, ⟨hitem, hitems⟩ => ⟨AllStrings.mono hqr item hitem, AllItems.mono hqr items hitems⟩

theorem AllMembers.mono (hqr : ∀ t, q t → r t) :
    ∀ members : List (Text × Json), AllMembers q members → AllMembers r members
  | [], _ => trivial
  | (name, value) :: members, ⟨hname, hvalue, hmembers⟩ =>
    ⟨hqr name hname, AllStrings.mono hqr value hvalue, AllMembers.mono hqr members hmembers⟩

end

end Implied

section Alphabets

variable {alphabet alphabet' : Alphabet}

mutual

/-- A value is plain in every alphabet in which its strings are readable, if it is plain in some alphabet. -/
theorem IsPlain.of_allStrings :
    ∀ v : Json, IsPlain alphabet v → AllStrings (IsReadable alphabet') v → IsPlain alphabet' v
  | .null, _, _ | .boolean _, _, _ | .integer _, _, _ => trivial
  | .string _, _, h => h
  | .array items, hplain, h => ArePlain.of_allItems items hplain h
  | .object members, ⟨hplain, hnodup⟩, h => ⟨HavePlain.of_allMembers members hplain h, hnodup⟩

theorem ArePlain.of_allItems :
    ∀ items : List Json, ArePlain alphabet items → AllItems (IsReadable alphabet') items → ArePlain alphabet' items
  | [], _, _ => trivial
  | item :: items, ⟨hitem, hitems⟩, ⟨hstrings, hrest⟩ =>
    ⟨IsPlain.of_allStrings item hitem hstrings, ArePlain.of_allItems items hitems hrest⟩

theorem HavePlain.of_allMembers : ∀ members : List (Text × Json), HavePlain alphabet members →
    AllMembers (IsReadable alphabet') members → HavePlain alphabet' members
  | [], _, _ => trivial
  | (_, value) :: members, ⟨_, hvalue, hmembers⟩, ⟨hname, hstrings, hrest⟩ =>
    ⟨hname, IsPlain.of_allStrings value hvalue hstrings, HavePlain.of_allMembers members hmembers hrest⟩

end

end Alphabets

/-! ## Tokens -/

/-- The characters of tokens other than strings, of escapes, and of the two layouts. -/
def tokenCharacters : Text := "\"\\[]\x7b\x7d:,- \n0123456789abcdefghijklmnopqrstuvwxyz"

/-- Those that stand within a line: the line feed comes from a layout only. -/
def lineCharacters : Text := tokenCharacters.erase (.scalar '\n')

theorem mem_tokenCharacters_of_mem_line {c : CodePoint} (h : c ∈ lineCharacters) : c ∈ tokenCharacters :=
  List.mem_of_mem_erase h

section Tokens

variable {p : CodePoint → Prop}

theorem forall_mem_token (htoken : ∀ c ∈ lineCharacters, p c) {t : Text} (ht : ∀ c ∈ t, c ∈ lineCharacters) :
    ∀ c ∈ t, p c := fun c hc => htoken c (ht c hc)

theorem digitChar_mem_lineCharacters : ∀ d < 16, CodePoint.scalar d.digitChar ∈ lineCharacters := by decide

theorem forall_mem_escapeUnit (htoken : ∀ c ∈ lineCharacters, p c) {n : Nat} (h : n < 0x10000) :
    ∀ c ∈ escapeUnit n, p c := by
  rw [escapeUnit, hexadecimal_succ 3 n (by decide), hexadecimal_succ 2 _ (by decide),
    hexadecimal_succ 1 _ (by decide), hexadecimal_one _ (by omega)]
  intro c hc
  apply htoken
  simp only [List.mem_append, List.mem_singleton] at hc
  rcases hc with hc | ((rfl | rfl) | rfl) | rfl
  · exact forall_mem_token (fun _ => id) (by decide) c hc
  all_goals exact digitChar_mem_lineCharacters _ (by omega)

theorem forall_mem_escapeNumber (htoken : ∀ c ∈ lineCharacters, p c) {n : Nat} (h : n < 0x110000) :
    ∀ c ∈ escapeNumber n, p c := by
  unfold escapeNumber
  split
  · next hsmall => exact forall_mem_escapeUnit htoken hsmall
  · next hpast =>
    obtain ⟨hhigh, hlow⟩ := splitPair_mem n (Nat.not_lt.1 hpast) h
    exact List.forall_mem_append.2
      ⟨forall_mem_escapeUnit htoken (by omega), forall_mem_escapeUnit htoken (by omega)⟩

theorem toNat_lt (c : CodePoint) : c.toNat < 0x110000 := by
  cases c with
  | scalar c =>
    have hvalid : c.toNat < 0xD800 ∨ 0xDFFF < c.toNat ∧ c.toNat < 0x110000 := c.valid
    rw [CodePoint.toNat]
    omega
  | surrogate offset =>
    rw [CodePoint.toNat]
    omega

theorem forall_mem_writeChar (htoken : ∀ c ∈ lineCharacters, p c) (alphabet : Alphabet) {c : CodePoint}
    (hc : 0x20 ≤ c.toNat → p c) : ∀ d ∈ writeChar alphabet c, p d := by
  unfold writeChar
  split
  case h_8 =>
    split
    · exact forall_mem_escapeNumber htoken (toNat_lt c)
    · next hkept => exact List.forall_mem_singleton.2 (hc (Nat.not_lt.1 fun hlow => hkept (.inl hlow)))
  all_goals exact forall_mem_token htoken (by decide)

theorem forall_mem_writeString (htoken : ∀ c ∈ lineCharacters, p c) (alphabet : Alphabet) {t : Text}
    (ht : ∀ c ∈ t, 0x20 ≤ c.toNat → p c) : ∀ d ∈ writeString alphabet t, p d := by
  have hquote : p (.scalar '"') := htoken _ (by decide)
  rw [writeString, List.forall_mem_append, List.forall_mem_cons, List.forall_mem_singleton]
  refine ⟨⟨hquote, fun d hd => ?_⟩, hquote⟩
  obtain ⟨c, hc, hmem⟩ := List.mem_flatMap.1 hd
  exact forall_mem_writeChar htoken alphabet (ht c hc) d hmem

theorem mem_lineCharacters_of_isAsciiDigit {c : CodePoint} (h : c.isAsciiDigit) : c ∈ lineCharacters := by
  have hdigits : ∀ d < 10, CodePoint.scalar (Char.ofNat (0x30 + d)) ∈ lineCharacters := by decide
  simp only [CodePoint.isAsciiDigit, Bool.and_eq_true, decide_eq_true_eq] at h
  cases c with
  | surrogate offset =>
    rw [CodePoint.toNat] at h
    omega
  | scalar c =>
    rw [CodePoint.toNat] at h
    have hdigit := hdigits (c.toNat - 0x30) (by omega)
    rwa [Nat.add_sub_cancel' h.1, Char.ofNat_toNat] at hdigit

theorem forall_mem_ofInt (htoken : ∀ c ∈ lineCharacters, p c) (i : Int) : ∀ c ∈ Decimal.ofInt i, p c := by
  have hnat : ∀ n, ∀ c ∈ Decimal.ofNat n, p c :=
    fun n c hc => htoken c (mem_lineCharacters_of_isAsciiDigit (Decimal.isAsciiDigit_of_mem_ofNat hc))
  cases i with
  | ofNat n => exact hnat n
  | negSucc n => exact List.forall_mem_cons.2 ⟨htoken _ (by decide), hnat (n + 1)⟩

end Tokens

/-! ## Values -/

section Values

variable {p : CodePoint → Prop} {layout : Layout} {alphabet : Alphabet}

/-- Whether the blanks of a layout have a property. -/
def Layout.All (p : CodePoint → Prop) (layout : Layout) : Prop :=
  (∀ level, ∀ c ∈ layout.gap level, p c) ∧ ∀ c ∈ layout.afterColon, p c

theorem Layout.all_dense (p : CodePoint → Prop) : Layout.dense.All p :=
  ⟨fun _ => List.forall_mem_nil p, List.forall_mem_nil p⟩

theorem Layout.all_lines (htoken : ∀ c ∈ tokenCharacters, p c) : Layout.lines.All p := by
  refine ⟨fun level => List.forall_mem_cons.2 ⟨htoken _ (by decide), fun c hc => ?_⟩, ?_⟩
  · rw [List.eq_of_mem_replicate hc]
    exact htoken _ (by decide)
  · exact fun c hc => htoken c (by revert c; decide)

theorem forall_mem_bracketed (htoken : ∀ c ∈ lineCharacters, p c) (hlayout : layout.All p) (level : Nat)
    {opening closing : Char} (hopening : p (.scalar opening)) (hclosing : p (.scalar closing))
    {items : List Text} (h : ∀ item ∈ items, ∀ c ∈ item, p c) :
    ∀ c ∈ bracketed layout level opening closing items, p c := by
  have hcomma : p (.scalar ',') := htoken _ (by decide)
  have hjoin : ∀ c ∈ Text.joinWith (CodePoint.scalar ',' :: layout.gap (level + 1)) items, p c := by
    intro c hc
    rcases Text.mem_joinWith hc with hc | ⟨item, hitem, hc⟩
    · exact List.forall_mem_cons.2 ⟨hcomma, hlayout.1 (level + 1)⟩ c hc
    · exact h item hitem c hc
  unfold bracketed
  split
  · simp [hopening, hclosing]
  · simp only [List.forall_mem_append, List.forall_mem_cons]
    exact ⟨⟨⟨⟨hopening, hlayout.1 (level + 1)⟩, hjoin⟩, hlayout.1 level⟩, hclosing, List.forall_mem_nil p⟩

theorem forall_mem_memberText (htoken : ∀ c ∈ lineCharacters, p c) (hlayout : layout.All p) {name value : Text}
    (hname : ∀ c ∈ name, 0x20 ≤ c.toNat → p c) (hvalue : ∀ c ∈ value, p c) :
    ∀ c ∈ memberText layout alphabet name value, p c := by
  have hcolon : p (.scalar ':') := htoken _ (by decide)
  simp only [memberText, List.forall_mem_append, List.forall_mem_cons]
  exact ⟨⟨forall_mem_writeString htoken alphabet hname, hcolon, hlayout.2⟩, hvalue⟩

theorem forall_mem_constant (htoken : ∀ c ∈ lineCharacters, p c) :
    (∀ c ∈ Text.ofString "null", p c) ∧ (∀ c ∈ Text.ofString "true", p c) ∧ ∀ c ∈ Text.ofString "false", p c :=
  ⟨forall_mem_token htoken (by decide), forall_mem_token htoken (by decide),
    forall_mem_token htoken (by decide)⟩

mutual

/-- The characters of a written value are those of tokens and those of its strings. -/
theorem forall_mem_written (htoken : ∀ c ∈ lineCharacters, p c) (hlayout : layout.All p) :
    ∀ (v : Json) (level : Nat), IsPlain alphabet v → AllStrings (∀ c ∈ ·, 0x20 ≤ c.toNat → p c) v →
      ∀ c ∈ written layout alphabet level v, p c
  | .null, _, _, _ => (forall_mem_constant htoken).1
  | .boolean true, _, _, _ => (forall_mem_constant htoken).2.1
  | .boolean false, _, _, _ => (forall_mem_constant htoken).2.2
  | .integer value, _, _, _ => forall_mem_ofInt htoken value
  | .string _, _, _, h => forall_mem_writeString htoken alphabet h
  | .array items, level, hplain, h =>
    forall_mem_bracketed htoken hlayout level (htoken _ (by decide)) (htoken _ (by decide))
      (forall_mem_items htoken hlayout items (level + 1) hplain h)
  | .object members, level, hplain, h =>
    forall_mem_bracketed htoken hlayout level (htoken _ (by decide)) (htoken _ (by decide))
      (forall_mem_members htoken hlayout members (level + 1) hplain.1 h)

theorem forall_mem_items (htoken : ∀ c ∈ lineCharacters, p c) (hlayout : layout.All p) :
    ∀ (items : List Json) (level : Nat), ArePlain alphabet items →
      AllItems (∀ c ∈ ·, 0x20 ≤ c.toNat → p c) items →
        ∀ item ∈ writtenItems layout alphabet level items, ∀ c ∈ item, p c
  | [], _, _, _ => List.forall_mem_nil _
  | item :: items, level, ⟨hitem, hitems⟩, ⟨hstrings, hrest⟩ => by
    rw [writtenItems, List.forall_mem_cons]
    exact ⟨forall_mem_written htoken hlayout item level hitem hstrings,
      forall_mem_items htoken hlayout items level hitems hrest⟩

theorem forall_mem_members (htoken : ∀ c ∈ lineCharacters, p c) (hlayout : layout.All p) :
    ∀ (members : List (Text × Json)) (level : Nat), HavePlain alphabet members →
      AllMembers (∀ c ∈ ·, 0x20 ≤ c.toNat → p c) members →
        ∀ member ∈ writtenMembers layout alphabet level members, ∀ c ∈ member, p c
  | [], _, _, _ => List.forall_mem_nil _
  | (name, value) :: members, level, ⟨_, hvalue, hmembers⟩, ⟨hname, hstrings, hrest⟩ => by
    rw [writtenMembers, List.forall_mem_cons]
    exact ⟨forall_mem_memberText htoken hlayout hname
        (forall_mem_written htoken hlayout value level hvalue hstrings),
      forall_mem_members htoken hlayout members level hmembers hrest⟩

end

end Values

/-! ## Characters that are written as they are -/

section Kept

variable {p : CodePoint → Prop} {layout : Layout} {alphabet : Alphabet}

theorem forall_mem_of_writeString (hkept : ∀ c, ¬ p c → writeChar alphabet c = [c]) {t : Text}
    (h : ∀ c ∈ writeString alphabet t, p c) : ∀ c ∈ t, p c := by
  intro c hc
  by_contra hnot
  have hwritten : c ∈ t.flatMap (writeChar alphabet) := by
    apply List.mem_flatMap.2 ⟨c, hc, _⟩
    rw [hkept c hnot]
    exact List.mem_singleton_self c
  exact hnot (h c (List.mem_append_left _ (List.mem_cons_of_mem _ hwritten)))

theorem subset_bracketed {level : Nat} {opening closing : Char} {items : List Text} {item : Text}
    (h : item ∈ items) : item ⊆ bracketed layout level opening closing items := by
  have hnot : ¬ items.isEmpty := by simpa using List.ne_nil_of_mem h
  rw [bracketed, if_neg hnot]
  intro c hc
  have hjoined : c ∈ Text.joinWith (CodePoint.scalar ',' :: layout.gap (level + 1)) items :=
    Text.subset_joinWith h hc
  exact List.mem_append_left _ (List.mem_append_left _ (List.mem_append_right _ hjoined))

mutual

/-- The strings of a value hold what its written form holds, but for characters that are escaped. -/
theorem allStrings_of_written (hkept : ∀ c, ¬ p c → writeChar alphabet c = [c]) :
    ∀ (v : Json) (level : Nat), (∀ c ∈ written layout alphabet level v, p c) → AllStrings (∀ c ∈ ·, p c) v
  | .string _, _, h => forall_mem_of_writeString hkept h
  | .array items, level, h =>
    allItems_of_written hkept items (level + 1) fun _ hitem c hc => h c (subset_bracketed hitem hc)
  | .object members, level, h =>
    allMembers_of_written hkept members (level + 1) fun _ hmember c hc => h c (subset_bracketed hmember hc)
  | .null, _, _ | .boolean _, _, _ | .integer _, _, _ | .number _, _, _ => trivial

theorem allItems_of_written (hkept : ∀ c, ¬ p c → writeChar alphabet c = [c]) :
    ∀ (items : List Json) (level : Nat),
      (∀ item ∈ writtenItems layout alphabet level items, ∀ c ∈ item, p c) → AllItems (∀ c ∈ ·, p c) items
  | [], _, _ => trivial
  | item :: items, level, h => by
    rw [writtenItems, List.forall_mem_cons] at h
    exact ⟨allStrings_of_written hkept item level h.1, allItems_of_written hkept items level h.2⟩

theorem allMembers_of_written (hkept : ∀ c, ¬ p c → writeChar alphabet c = [c]) :
    ∀ (members : List (Text × Json)) (level : Nat),
      (∀ member ∈ writtenMembers layout alphabet level members, ∀ c ∈ member, p c) →
        AllMembers (∀ c ∈ ·, p c) members
  | [], _, _ => trivial
  | (name, value) :: members, level, h => by
    rw [writtenMembers, List.forall_mem_cons, memberText, List.forall_mem_append, List.forall_mem_append] at h
    obtain ⟨⟨⟨hname, -⟩, hvalue⟩, hmembers⟩ := h
    exact ⟨forall_mem_of_writeString hkept hname, allStrings_of_written hkept value level hvalue,
      allMembers_of_written hkept members level hmembers⟩

end

end Kept

/-! ## Surrogates -/

theorem writeChar_of_isSurrogate {c : CodePoint} (h : c.isSurrogate) : writeChar .unicode c = [c] := by
  cases c with
  | scalar c => cases h
  | surrogate offset =>
    have hlarge : ¬ ((CodePoint.surrogate offset).toNat < 0x20 ∨
        Alphabet.unicode = .ascii ∧ 0x7F ≤ (CodePoint.surrogate offset).toNat) := by
      simp only [CodePoint.toNat, reduceCtorEq, false_and, or_false]
      omega
    simp only [writeChar, if_neg hlarge]

/-- A written value holds a surrogate exactly if one of its strings does. -/
theorem isUnicode_written_iff {v : Json} (hplain : IsPlain .unicode v) {layout : Layout}
    (hlayout : layout.All (·.isSurrogate = false)) (level : Nat) :
    (written layout .unicode level v).isUnicode ↔ AllStrings (Text.isUnicode ·) v := by
  have htoken : ∀ c ∈ lineCharacters, c.isSurrogate = false := by decide
  have hkept : ∀ c : CodePoint, ¬ c.isSurrogate = false → writeChar .unicode c = [c] :=
    fun c hc => writeChar_of_isSurrogate (by simpa using hc)
  rw [Text.isUnicode_iff]
  constructor
  · intro h
    exact AllStrings.mono (fun _ => Text.isUnicode_iff.2) v (allStrings_of_written hkept v level h)
  · intro h
    apply forall_mem_written htoken hlayout v level hplain
    exact AllStrings.mono (fun t ht c hc _ => Text.isUnicode_iff.1 ht c hc) v h

end ModuleCatalog.Json
