import ModuleCatalog.Proofs.Json.Token

/-!
# Written values read back

Every layout of a value without floating-point numbers and without repeated keys is read back as that
value. The reader takes two units of fuel for each character at most, which is what a whole document is
given.
-/

namespace ModuleCatalog.Json

mutual

/-- Whether the written form of a value determines it: there are no floating-point numbers in it, strings
are readable in the alphabet, and keys differ. -/
def IsPlain (alphabet : Alphabet) : Json → Prop
  | .null | .boolean _ | .integer _ => True
  | .number _ => False
  | .string value => IsReadable alphabet value
  | .array items => ArePlain alphabet items
  | .object members => HavePlain alphabet members ∧ (Assoc.keys members).Nodup

def ArePlain (alphabet : Alphabet) : List Json → Prop
  | [] => True
  | item :: items => IsPlain alphabet item ∧ ArePlain alphabet items

def HavePlain (alphabet : Alphabet) : List (Text × Json) → Prop
  | [] => True
  | (name, value) :: members =>
    IsReadable alphabet name ∧ IsPlain alphabet value ∧ HavePlain alphabet members

end

/-! ## Blanks -/

theorem skipSpace_append (blanks t : Text) (hblanks : ∀ c ∈ blanks, isSpace c) :
    skipSpace (blanks ++ t) = skipSpace t :=
  List.dropWhile_append_of_pos hblanks

theorem skipSpace_cons {c : CodePoint} (hc : isSpace c = false) (t : Text) :
    skipSpace (c :: t) = c :: t := by
  simp [skipSpace, hc]

theorem skipSpace_append_cons (blanks t : Text) {c : CodePoint} (hblanks : ∀ c ∈ blanks, isSpace c)
    (hc : isSpace c = false) : skipSpace (blanks ++ c :: t) = c :: t := by
  rw [skipSpace_append blanks _ hblanks, skipSpace_cons hc]

theorem endsNumber_cons {c : CodePoint} (t : Text) (hc : isSpace c ∨ c = .scalar ',' ∨
    c = .scalar ']' ∨ c = .scalar '}') : EndsNumber (c :: t) := by
  intro first hfirst
  obtain rfl : c = first := Option.some.inj hfirst
  rcases hc with hspace | rfl | rfl | rfl
  · simp only [isSpace, Bool.or_eq_true, decide_eq_true_eq] at hspace
    rcases hspace with ((rfl | rfl) | rfl) | rfl <;> decide
  all_goals decide

theorem endsNumber_append_cons (blanks t : Text) {c : CodePoint} (hblanks : ∀ c ∈ blanks, isSpace c)
    (hc : c = .scalar ',' ∨ c = .scalar ']' ∨ c = .scalar '}') : EndsNumber (blanks ++ c :: t) := by
  cases blanks with
  | nil => exact endsNumber_cons t (.inr hc)
  | cons blank blanks => exact endsNumber_cons _ (.inl (hblanks blank List.mem_cons_self))

/-! ## First characters -/

/-- Whether a text begins like a value: with no blank, closing bracket or byte order mark. -/
def BeginsValue (t : Text) : Prop :=
  ∃ c rest, t = c :: rest ∧ isSpace c = false ∧ c ≠ .scalar ']' ∧ c ≠ .scalar '\uFEFF'

theorem isSpace_of_isAsciiDigit {c : CodePoint} (hc : c.isAsciiDigit) : isSpace c = false := by
  simp [isSpace, ne_of_isAsciiDigit hc (.scalar ' ') rfl,
    ne_of_isAsciiDigit hc (.scalar '\t') rfl, ne_of_isAsciiDigit hc (.scalar '\n') rfl,
    ne_of_isAsciiDigit hc (.scalar '\r') rfl]

theorem beginsValue_ofInt (i : Int) : BeginsValue (Decimal.ofInt i) := by
  cases i with
  | ofNat n =>
    obtain ⟨c, digits, hdigits, hc⟩ := exists_ofNat_eq_cons n
    exact ⟨c, digits, hdigits, isSpace_of_isAsciiDigit hc, ne_of_isAsciiDigit hc _ rfl,
      ne_of_isAsciiDigit hc _ rfl⟩
  | negSucc n => exact ⟨_, _, rfl, rfl, by decide⟩

theorem beginsValue_bracketed (layout : Layout) (level : Nat) (opening closing : Char)
    (items : List Text) (h : BeginsValue [.scalar opening]) :
    BeginsValue (bracketed layout level opening closing items) := by
  obtain ⟨c, rest, heq, hc⟩ := h
  obtain ⟨rfl, -⟩ := List.cons.inj heq
  unfold bracketed
  split
  · exact ⟨_, _, rfl, hc⟩
  · exact ⟨_, _, rfl, hc⟩

theorem beginsValue_written (layout : Layout) (alphabet : Alphabet) (level : Nat) (v : Json)
    (hv : v.IsPlain alphabet) : BeginsValue (written layout alphabet level v) := by
  cases v with
  | null => exact ⟨_, _, rfl, rfl, by decide⟩
  | boolean value => cases value <;> exact ⟨_, _, rfl, rfl, by decide⟩
  | integer value => exact beginsValue_ofInt value
  | number value => exact hv.elim
  | string value => exact ⟨_, _, rfl, rfl, by decide⟩
  | array items => exact beginsValue_bracketed layout level _ _ _ ⟨_, _, rfl, rfl, by decide⟩
  | object members => exact beginsValue_bracketed layout level _ _ _ ⟨_, _, rfl, rfl, by decide⟩

theorem skipSpace_beginsValue (blanks : Text) {t : Text} (ht : BeginsValue t) (rest : Text)
    (hblanks : ∀ c ∈ blanks, isSpace c) : skipSpace (blanks ++ (t ++ rest)) = t ++ rest := by
  obtain ⟨c, after, rfl, hc, -⟩ := ht
  exact skipSpace_append_cons blanks _ hblanks hc

/-! ## Leaves -/

theorem readValue_of_readPlain? (fuel : Nat) {c : CodePoint} {t : Text} {found : Json × Text}
    (hquote : c ≠ .scalar '"') (hbrace : c ≠ .scalar '{') (hbracket : c ≠ .scalar '[')
    (h : readPlain? (c :: t) = some found) : readValue (fuel + 1) (c :: t) = .ok found := by
  rw [readValue, if_neg hquote, if_neg hbrace, if_neg hbracket, h]

theorem readValue_ofInt (fuel : Nat) (i : Int) (rest : Text) (hrest : EndsNumber rest) :
    readValue (fuel + 1) (Decimal.ofInt i ++ rest) = .ok (.integer i, rest) := by
  have hread := readPlain?_ofInt i rest hrest
  cases i with
  | ofNat n =>
    obtain ⟨c, digits, hdigits, hc⟩ := exists_ofNat_eq_cons n
    rw [Decimal.ofInt, hdigits] at hread ⊢
    exact readValue_of_readPlain? fuel (ne_of_isAsciiDigit hc _ rfl) (ne_of_isAsciiDigit hc _ rfl)
      (ne_of_isAsciiDigit hc _ rfl) hread
  | negSucc n => exact readValue_of_readPlain? fuel (by decide) (by decide) (by decide) hread

theorem readValue_writeString (fuel : Nat) (alphabet : Alphabet) (t rest : Text)
    (ht : IsReadable alphabet t) :
    readValue (fuel + 1) (writeString alphabet t ++ rest) = .ok (.string t, rest) := by
  rw [writeString_append, readValue, if_pos rfl, readString_writeString alphabet t rest ht]
  rfl

/-! ## Arrays and objects -/

theorem beginsValue_joinWith (separator : Text) {t : Text} (ht : BeginsValue t) (ts : List Text) :
    BeginsValue (Text.joinWith separator (t :: ts)) := by
  obtain ⟨c, rest, rfl, hc⟩ := ht
  cases ts with
  | nil => exact ⟨c, rest, rfl, hc⟩
  | cons next ts => exact ⟨c, _, rfl, hc⟩

theorem readItems_last (fuel : Nat) (t blanks rest : Text) (v : Json)
    (hblanks : ∀ c ∈ blanks, isSpace c)
    (h : readValue fuel (t ++ (blanks ++ .scalar ']' :: rest)) = .ok (v, blanks ++ .scalar ']' :: rest)) :
    readItems (fuel + 1) (t ++ (blanks ++ .scalar ']' :: rest)) = .ok ([v], rest) := by
  have hskip : skipSpace (blanks ++ .scalar ']' :: rest) = .scalar ']' :: rest :=
    skipSpace_append_cons blanks rest hblanks rfl
  simp only [readItems, h, bind, Except.bind, hskip]

theorem readItems_more (fuel : Nat) (t after rest : Text) (v : Json) (vs : List Json)
    (h : readValue fuel (t ++ .scalar ',' :: after) = .ok (v, .scalar ',' :: after))
    (hmore : readItems fuel (skipSpace after) = .ok (vs, rest)) :
    readItems (fuel + 1) (t ++ .scalar ',' :: after) = .ok (v :: vs, rest) := by
  have hskip : skipSpace (.scalar ',' :: after) = .scalar ',' :: after := skipSpace_cons rfl after
  simp only [readItems, h, bind, Except.bind, hskip, hmore]

theorem memberText_append (layout : Layout) (alphabet : Alphabet) (name t tail : Text) :
    memberText layout alphabet name t ++ tail =
      .scalar '"' :: (name.flatMap (writeChar alphabet) ++ .scalar '"' :: .scalar ':' ::
        (layout.afterColon ++ (t ++ tail))) := by
  simp [memberText, writeString]

theorem skipSpace_afterColon (layout : Layout) {t : Text} (ht : BeginsValue t) (tail : Text) :
    skipSpace (layout.afterColon ++ (t ++ tail)) = t ++ tail :=
  skipSpace_beginsValue layout.afterColon ht tail layout.isSpace_afterColon

theorem readMembers_last (fuel : Nat) (layout : Layout) (alphabet : Alphabet)
    (name t blanks rest : Text) (v : Json) (hname : IsReadable alphabet name) (ht : BeginsValue t)
    (hblanks : ∀ c ∈ blanks, isSpace c)
    (h : readValue fuel (t ++ (blanks ++ .scalar '}' :: rest)) = .ok (v, blanks ++ .scalar '}' :: rest)) :
    readMembers (fuel + 1) (memberText layout alphabet name t ++ (blanks ++ .scalar '}' :: rest)) =
      .ok ([(name, v)], rest) := by
  have hskip : skipSpace (blanks ++ .scalar '}' :: rest) = .scalar '}' :: rest :=
    skipSpace_append_cons blanks rest hblanks rfl
  rw [memberText_append, readMembers]
  simp only [bind, Except.bind, readString_writeString alphabet name _ hname,
    skipSpace_cons (c := .scalar ':') rfl, skipSpace_afterColon layout ht, h, hskip]

theorem readMembers_more (fuel : Nat) (layout : Layout) (alphabet : Alphabet)
    (name t after rest : Text) (v : Json) (members : List (Text × Json))
    (hname : IsReadable alphabet name) (ht : BeginsValue t)
    (h : readValue fuel (t ++ .scalar ',' :: after) = .ok (v, .scalar ',' :: after))
    (hmore : readMembers fuel (skipSpace after) = .ok (members, rest)) :
    readMembers (fuel + 1) (memberText layout alphabet name t ++ .scalar ',' :: after) =
      .ok ((name, v) :: members, rest) := by
  have hskip : skipSpace (.scalar ',' :: after) = .scalar ',' :: after := skipSpace_cons rfl after
  rw [memberText_append, readMembers]
  simp only [bind, Except.bind, readString_writeString alphabet name _ hname,
    skipSpace_cons (c := .scalar ':') rfl, skipSpace_afterColon layout ht, h, hskip, hmore]

/-! ## All values -/

theorem length_joinWith_cons (separator t next : Text) (ts : List Text) :
    (Text.joinWith separator (t :: next :: ts)).length =
      t.length + separator.length + (Text.joinWith separator (next :: ts)).length := by
  simp only [Text.joinWith, List.length_append]

theorem joinWith_cons_append (separator t next : Text) (ts : List Text) (tail : Text) :
    Text.joinWith separator (t :: next :: ts) ++ tail =
      t ++ (separator ++ (Text.joinWith separator (next :: ts) ++ tail)) := by
  simp only [Text.joinWith, List.append_assoc]

theorem bracketed_cons_append (layout : Layout) (level : Nat) (opening closing : Char) (t : Text)
    (ts : List Text) (rest : Text) :
    bracketed layout level opening closing (t :: ts) ++ rest =
      .scalar opening :: (layout.gap (level + 1) ++
        (Text.joinWith (.scalar ',' :: layout.gap (level + 1)) (t :: ts) ++
          (layout.gap level ++ .scalar closing :: rest))) := by
  simp [bracketed]

theorem length_bracketed_cons (layout : Layout) (level : Nat) (opening closing : Char) (t : Text)
    (ts : List Text) :
    (Text.joinWith (.scalar ',' :: layout.gap (level + 1)) (t :: ts)).length + 2 ≤
      (bracketed layout level opening closing (t :: ts)).length := by
  simp only [bracketed, List.isEmpty_cons, Bool.false_eq_true, if_false, List.cons_append,
    List.length_cons, List.length_append, List.length_nil]
  omega

theorem readValue_bracketed_array (fuel : Nat) (layout : Layout) (level : Nat) (t : Text)
    (ts : List Text) (rest : Text) (vs : List Json) (ht : BeginsValue t)
    (h : readItems fuel (Text.joinWith (.scalar ',' :: layout.gap (level + 1)) (t :: ts) ++
      (layout.gap level ++ .scalar ']' :: rest)) = .ok (vs, rest)) :
    readValue (fuel + 1) (bracketed layout level '[' ']' (t :: ts) ++ rest) = .ok (.array vs, rest) := by
  have hjoin := beginsValue_joinWith (.scalar ',' :: layout.gap (level + 1)) ht ts
  have hskip := skipSpace_beginsValue (layout.gap (level + 1)) hjoin
    (layout.gap level ++ .scalar ']' :: rest) (layout.isSpace_gap (level + 1))
  obtain ⟨c, after, heq, -, hclosing, -⟩ := hjoin
  rw [bracketed_cons_append, readValue, if_neg (by decide), if_neg (by decide), if_pos rfl, hskip]
  split
  · next heq' =>
    rw [heq] at heq'
    exact absurd (List.cons.inj heq').1 hclosing
  · rw [h]
    rfl

theorem readValue_bracketed_object (fuel : Nat) (layout : Layout) (level : Nat) (t : Text)
    (ts : List Text) (rest : Text) (members : List (Text × Json)) (ht : t.head? = some (.scalar '"'))
    (hmembers : (Assoc.keys members).Nodup)
    (h : readMembers fuel (Text.joinWith (.scalar ',' :: layout.gap (level + 1)) (t :: ts) ++
      (layout.gap level ++ .scalar '}' :: rest)) = .ok (members, rest)) :
    readValue (fuel + 1) (bracketed layout level '{' '}' (t :: ts) ++ rest) =
      .ok (.object members, rest) := by
  obtain ⟨after, rfl⟩ := List.head?_eq_some_iff.1 ht
  have hjoin := beginsValue_joinWith (.scalar ',' :: layout.gap (level + 1))
    ⟨.scalar '"', after, rfl, rfl, by decide⟩ ts
  have hskip := skipSpace_beginsValue (layout.gap (level + 1)) hjoin
    (layout.gap level ++ .scalar '}' :: rest) (layout.isSpace_gap (level + 1))
  rw [bracketed_cons_append, readValue, if_neg (by decide), if_pos rfl, hskip]
  split
  · next heq =>
    cases ts <;> exact absurd (List.cons.inj heq).1 (by decide)
  · rw [h]
    simp only [Except.map, Assoc.ofEntries_of_nodup hmembers]

theorem beginsValue_memberText (layout : Layout) (alphabet : Alphabet) (name t : Text) :
    BeginsValue (memberText layout alphabet name t) := ⟨.scalar '"', _, rfl, rfl, by decide⟩

theorem head?_memberText (layout : Layout) (alphabet : Alphabet) (name t : Text) :
    (memberText layout alphabet name t).head? = some (.scalar '"') := rfl

theorem length_le_length_memberText (layout : Layout) (alphabet : Alphabet) (name t : Text) :
    t.length + 1 ≤ (memberText layout alphabet name t).length := by
  simp only [memberText, List.length_append, List.length_cons]
  omega

mutual

/-- A written value in front of a text is read back, and the text is left. -/
theorem readValue_written (layout : Layout) (alphabet : Alphabet) :
    ∀ (v : Json) (level fuel : Nat) (rest : Text), v.IsPlain alphabet → EndsNumber rest →
      2 * (written layout alphabet level v).length ≤ fuel →
      readValue fuel (written layout alphabet level v ++ rest) = .ok (v, rest)
  | v, level, fuel, rest, hv, hrest, hfuel => by
    obtain ⟨fuel, rfl⟩ : ∃ k, fuel = k + 1 := by
      obtain ⟨c, t, heq, -⟩ := beginsValue_written layout alphabet level v hv
      rw [heq, List.length_cons] at hfuel
      exact ⟨fuel - 1, by omega⟩
    match v, hv with
    | .null, _ => exact readValue_of_readPlain? fuel (by decide) (by decide) (by decide) rfl
    | .boolean true, _ => exact readValue_of_readPlain? fuel (by decide) (by decide) (by decide) rfl
    | .boolean false, _ => exact readValue_of_readPlain? fuel (by decide) (by decide) (by decide) rfl
    | .integer i, _ => exact readValue_ofInt fuel i rest hrest
    | .string t, ht => exact readValue_writeString fuel alphabet t rest ht
    | .array [], _ => rfl
    | .array (item :: items), hitems =>
      have hlength := length_bracketed_cons layout level '[' ']'
        (written layout alphabet (level + 1) item) (writtenItems layout alphabet (level + 1) items)
      apply readValue_bracketed_array
      · exact beginsValue_written layout alphabet (level + 1) item hitems.1
      · apply readItems_written layout alphabet (item :: items) (level + 1) fuel _ rest (by simp) hitems
          (layout.isSpace_gap level)
        simp only [written, writtenItems] at hfuel ⊢
        omega
    | .object [], _ => rfl
    | .object ((name, value) :: members), ⟨hmembers, hkeys⟩ =>
      have hlength := length_bracketed_cons layout level '{' '}'
        (memberText layout alphabet name (written layout alphabet (level + 1) value))
        (writtenMembers layout alphabet (level + 1) members)
      apply readValue_bracketed_object fuel layout level _ _ rest _ (head?_memberText ..) hkeys
      apply readMembers_written layout alphabet ((name, value) :: members) (level + 1) fuel _ rest
        (by simp) hmembers (layout.isSpace_gap level)
      simp only [written, writtenMembers] at hfuel ⊢
      omega

theorem readItems_written (layout : Layout) (alphabet : Alphabet) :
    ∀ (items : List Json) (level fuel : Nat) (blanks rest : Text), items ≠ [] →
      ArePlain alphabet items → (∀ c ∈ blanks, isSpace c) →
      2 * (Text.joinWith (.scalar ',' :: layout.gap level)
        (writtenItems layout alphabet level items)).length + 1 ≤ fuel →
      readItems fuel (Text.joinWith (.scalar ',' :: layout.gap level)
        (writtenItems layout alphabet level items) ++ (blanks ++ .scalar ']' :: rest)) =
          .ok (items, rest)
  | [], _, _, _, _, h, _, _, _ => absurd rfl h
  | [item], level, fuel + 1, blanks, rest, _, hitem, hblanks, hfuel =>
    readItems_last fuel _ blanks rest item hblanks
      (readValue_written layout alphabet item level fuel _ hitem.1
        (endsNumber_append_cons blanks rest hblanks (by simp)) (Nat.le_of_succ_le_succ hfuel))
  | item :: next :: items, level, fuel + 1, blanks, rest, _, hitems, hblanks, hfuel => by
    simp only [writtenItems] at hfuel ⊢
    rw [length_joinWith_cons, List.length_cons] at hfuel
    rw [joinWith_cons_append, List.cons_append]
    apply readItems_more
    · exact readValue_written layout alphabet item level fuel _ hitems.1
        (endsNumber_cons _ (by simp)) (by omega)
    · have hjoin := beginsValue_joinWith (.scalar ',' :: layout.gap level)
        (beginsValue_written layout alphabet level next hitems.2.1)
        (writtenItems layout alphabet level items)
      rw [skipSpace_beginsValue _ hjoin _ (layout.isSpace_gap level)]
      exact readItems_written layout alphabet (next :: items) level fuel blanks rest (by simp)
        hitems.2 hblanks (by simp only [writtenItems]; omega)

theorem readMembers_written (layout : Layout) (alphabet : Alphabet) :
    ∀ (members : List (Text × Json)) (level fuel : Nat) (blanks rest : Text), members ≠ [] →
      HavePlain alphabet members → (∀ c ∈ blanks, isSpace c) →
      2 * (Text.joinWith (.scalar ',' :: layout.gap level)
        (writtenMembers layout alphabet level members)).length + 1 ≤ fuel →
      readMembers fuel (Text.joinWith (.scalar ',' :: layout.gap level)
        (writtenMembers layout alphabet level members) ++ (blanks ++ .scalar '}' :: rest)) =
          .ok (members, rest)
  | [], _, _, _, _, h, _, _, _ => absurd rfl h
  | [(name, value)], level, fuel + 1, blanks, rest, _, ⟨hname, hvalue, _⟩, hblanks, hfuel => by
    have hlength := length_le_length_memberText layout alphabet name
      (written layout alphabet level value)
    apply readMembers_last fuel layout alphabet name _ blanks rest value hname
      (beginsValue_written layout alphabet level value hvalue) hblanks
    apply readValue_written layout alphabet value level fuel _ hvalue
      (endsNumber_append_cons blanks rest hblanks (by simp))
    simp only [writtenMembers, Text.joinWith] at hfuel
    omega
  | (name, value) :: next :: members, level, fuel + 1, blanks, rest, _, ⟨hname, hvalue, hmembers⟩,
      hblanks, hfuel => by
    have hlength := length_le_length_memberText layout alphabet name
      (written layout alphabet level value)
    obtain ⟨nextName, nextValue⟩ := next
    simp only [writtenMembers] at hfuel ⊢
    rw [length_joinWith_cons, List.length_cons] at hfuel
    rw [joinWith_cons_append, List.cons_append]
    apply readMembers_more fuel layout alphabet name _ _ rest value _ hname
      (beginsValue_written layout alphabet level value hvalue)
    · apply readValue_written layout alphabet value level fuel _ hvalue (endsNumber_cons _ (by simp))
      omega
    · have hjoin := beginsValue_joinWith (.scalar ',' :: layout.gap level)
        (beginsValue_memberText layout alphabet nextName (written layout alphabet level nextValue))
        (writtenMembers layout alphabet level members)
      rw [skipSpace_beginsValue _ hjoin _ (layout.isSpace_gap level)]
      apply readMembers_written layout alphabet ((nextName, nextValue) :: members) level fuel blanks
        rest (by simp) hmembers hblanks
      simp only [writtenMembers]
      omega

end

/-- A value is what its document in any layout holds. -/
theorem parse_written (layout : Layout) (alphabet : Alphabet) (v : Json) (after : Text)
    (hv : v.IsPlain alphabet) (hafter : ∀ c ∈ after, isSpace c) :
    parse (written layout alphabet 0 v ++ after) = .ok v := by
  have hends : EndsNumber after := by
    cases after with
    | nil =>
      intro c hc
      cases hc
    | cons blank after => exact endsNumber_cons _ (.inl (hafter blank List.mem_cons_self))
  have hread := readValue_written layout alphabet v 0
    (2 * (written layout alphabet 0 v ++ after).length + 2) after hv hends
    (by rw [List.length_append]; omega)
  have hblank : skipSpace after = [] := by
    have h := skipSpace_append after [] hafter
    rw [List.append_nil] at h
    exact h
  obtain ⟨c, rest, heq, hspace, -, hmark⟩ := beginsValue_written layout alphabet 0 v hv
  rw [heq, List.cons_append] at hread ⊢
  unfold parse
  split
  · next heq' => exact absurd (List.cons.inj heq').1 hmark
  · rw [skipSpace_cons hspace, hread]
    simp only [bind, Except.bind, hblank]

end ModuleCatalog.Json
