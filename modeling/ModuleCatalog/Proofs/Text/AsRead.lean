import ModuleCatalog.Proofs.Text.RawByte

/-!
# Texts in the form in which they are read

Different texts may be written as the same bytes, and the one that these bytes are read as stands for all of
them. A byte that is a character by itself is part of no other one. So a text with such a character in it is
read piece by piece.
-/

namespace ModuleCatalog.Utf8

/-! ## Positions of refusals -/

/-- A refusal further on. -/
def DecodeError.shift (e : DecodeError) (count : Nat) : DecodeError := { e with position := e.position + count }

/-- A character begun further on. -/
def Pending.shift (p : Pending) (count : Nat) : Pending := { p with position := p.position + count }

theorem lead_shift (position count : Nat) (byte : UInt8) :
    lead (position + count) byte = (lead position byte).map (Sum.map id (Pending.shift · count)) := by
  unfold lead
  dsimp only
  split_ifs <;> rfl

theorem mapError_map {α β ε ε' : Type} (x : Except ε α) (f : α → β) (g : ε → ε') :
    (x.map f).mapError g = (x.mapError g).map f := by
  cases x <;> rfl

/-- Where the bytes begin changes nothing but the positions of refusals. -/
theorem decodeFrom_shift (position count : Nat) (begun : Option Pending) (bytes : Bytes) :
    decodeFrom (position + count) (begun.map (Pending.shift · count)) bytes =
      (decodeFrom position begun bytes).mapError (DecodeError.shift · count) := by
  induction bytes generalizing position begun with
  | nil =>
    cases begun with
    | none => rfl
    | some p =>
      have hlength : position + count - (p.position + count) = position - p.position :=
        Nat.add_sub_add_right position count p.position
      simp only [Option.map_some, decodeFrom, Pending.shift, Except.mapError, DecodeError.shift, hlength]
  | cons byte bytes ih =>
    have hnext : position + count + 1 = position + 1 + count := Nat.add_right_comm position count 1
    cases begun with
    | none =>
      rw [Option.map_none, decodeFrom, decodeFrom, lead_shift, hnext]
      cases lead position byte with
      | none => rfl
      | some front =>
        cases front with
        | inl c =>
          rw [mapError_map, ← ih (position + 1) none]
          rfl
        | inr p => exact ih (position + 1) (some p)
    | some p =>
      rw [Option.map_some, decodeFrom, decodeFrom, hnext]
      dsimp only
      by_cases hrange : p.low ≤ byte.toNat ∧ byte.toNat ≤ p.high
      · have hrange' : (p.shift count).low ≤ byte.toNat ∧ byte.toNat ≤ (p.shift count).high := hrange
        rw [if_pos hrange, if_pos hrange']
        by_cases howed : p.owed ≤ 1
        · have howed' : (p.shift count).owed ≤ 1 := howed
          rw [if_pos howed, if_pos howed', mapError_map, ← ih (position + 1) none]
          rfl
        · have howed' : ¬ (p.shift count).owed ≤ 1 := howed
          let next : Pending :=
            { p with bits := p.bits * 64 + (byte.toNat - 0x80), owed := p.owed - 1, low := 0x80, high := 0xBF }
          rw [if_neg howed, if_neg howed', ← ih (position + 1) (some next), Option.map_some]
          rfl
      · have hrange' : ¬ ((p.shift count).low ≤ byte.toNat ∧ byte.toNat ≤ (p.shift count).high) := hrange
        rw [if_neg hrange, if_neg hrange']
        have hlength : position + count - (p.position + count) = position - p.position :=
          Nat.add_sub_add_right position count p.position
        simp only [Pending.shift, Except.mapError, DecodeError.shift, hlength]

/-! ## Refusals before a character of one byte -/

/-- The bytes of a character that cannot go on are refused whatever one-byte character follows them. -/
theorem decodeFrom_some_append {p : Pending} (hlow : 0x80 ≤ p.low) {position : Nat} {bytes rest : Bytes}
    {byte : UInt8} (hbyte : byte.toNat < 0x80) {e : DecodeError}
    (h : decodeFrom position (some p) bytes = .error e) (hposition : e.position < position) :
    ∃ reason, decodeFrom position (some p) (bytes ++ byte :: rest) = .error { e with reason } := by
  induction bytes generalizing p position with
  | nil =>
    obtain rfl := Except.error.inj h
    refine ⟨.invalidContinuation, ?_⟩
    rw [List.nil_append, decodeFrom]
    exact if_neg (by omega)
  | cons other bytes ih =>
    rw [decodeFrom] at h
    rw [List.cons_append, decodeFrom]
    dsimp only at h ⊢
    split at h
    · next hrange =>
      rw [if_pos hrange]
      split at h
      · obtain ⟨_, before, _, _, _, hfurther, _⟩ := exists_of_decodeFrom_eq_error (map_eq_error_iff.1 h)
        omega
      · next howed =>
        rw [if_neg howed]
        exact ih (by simp) h (by omega)
    · next hrange =>
      rw [if_neg hrange]
      exact ⟨.invalidContinuation, by rw [← Except.error.inj h]⟩

theorem decode_append {bytes : Bytes} {e : DecodeError} (h : decode bytes = .error e)
    (hposition : e.position = 0) {byte : UInt8} (hbyte : byte.toNat < 0x80) (rest : Bytes) :
    ∃ reason, decode (bytes ++ byte :: rest) = .error { e with reason } := by
  cases bytes with
  | nil => cases h
  | cons other bytes =>
    rw [decode, decodeFrom] at h
    rw [decode, List.cons_append, decodeFrom]
    cases hlead : lead 0 other with
    | none =>
      rw [hlead] at h
      exact ⟨.invalidStart, by rw [← Except.error.inj h]⟩
    | some front =>
      rw [hlead] at h
      cases front with
      | inl c =>
        obtain ⟨_, before, _, _, _, hfurther, _⟩ := exists_of_decodeFrom_eq_error (map_eq_error_iff.1 h)
        omega
      | inr p => exact decodeFrom_some_append (lead_eq_inr hlead).low hbyte h (by omega)

/-! ## Reading step by step -/

theorem decode_encodeChar (c : Char) (rest : Bytes) : decode (encodeChar c ++ rest) =
    ((decode rest).mapError (DecodeError.shift · (encodeChar c).length)).map (CodePoint.scalar c :: ·) := by
  rw [decode, decodeFrom_encodeChar, decode, ← decodeFrom_shift]
  rfl

/-- More steps than there are bytes change nothing. -/
theorem go_eq (replacement : Bytes → Text) {fuel more : Nat} {bytes : Bytes} (h : bytes.length < fuel)
    (hmore : bytes.length < more) :
    decodeReplacing.go replacement fuel bytes = decodeReplacing.go replacement more bytes := by
  induction fuel generalizing more bytes with
  | zero => cases h
  | succ fuel ih =>
    obtain ⟨more, rfl⟩ := Nat.exists_eq_succ_of_ne_zero (Nat.ne_of_gt (Nat.zero_lt_of_lt hmore))
    rw [decodeReplacing.go, decodeReplacing.go]
    cases hdecode : decode bytes with
    | ok t => rfl
    | error e =>
      obtain ⟨_, before, rest, rfl, -, -, hpos, hle, -⟩ := exists_of_decodeFrom_eq_error hdecode
      have hshorter : (((before ++ rest).drop e.position).drop e.length).length <
          (before ++ rest).length := by
        rw [List.drop_drop, List.length_drop, List.length_append]
        omega
      dsimp only
      rw [ih (by omega) (by omega : _ < more)]

theorem decodeRaw_encodeChar (c : Char) (rest : Bytes) :
    decodeRaw (encodeChar c ++ rest) = .scalar c :: decodeRaw rest := by
  have hdecode := decode_encodeChar c rest
  rw [decodeRaw, decodeRaw, decodeReplacing, decodeReplacing, decodeReplacing.go, decodeReplacing.go]
  cases hrest : decode rest with
  | ok t =>
    rw [hrest] at hdecode
    rw [hdecode]
    rfl
  | error e =>
    rw [hrest] at hdecode
    obtain ⟨t, before, rest, rfl, hbefore, hposition, hpos, hle, -⟩ := exists_of_decodeFrom_eq_error hrest
    have hfirst : decode before = .ok t := decode_eq_of_encode_eq (hbefore 0)
    have hsecond : decode (encodeChar c ++ before) = .ok (.scalar c :: t) := by
      rw [decode_encodeChar, hfirst]
      rfl
    have hfurther : e.position + (encodeChar c).length = (encodeChar c ++ before).length := by
      rw [List.length_append, hposition]
      omega
    have hshorter : (rest.drop e.length).length < (before ++ rest).length := by
      rw [List.length_drop, List.length_append]
      omega
    rw [hdecode]
    dsimp only [Except.mapError, Except.map, DecodeError.shift]
    rw [hfurther, hposition, Nat.zero_add, ← List.append_assoc, List.take_left, List.take_left,
      List.drop_left, List.drop_left, hfirst, hsecond]
    dsimp only
    rw [go_eq _ _ hshorter]
    · rfl
    · rw [List.length_append, List.length_append]
      rw [List.length_append] at hshorter
      omega

theorem decodeRaw_of_refused {bytes : Bytes} {e : DecodeError} (h : decode bytes = .error e)
    (hposition : e.position = 0) :
    decodeRaw bytes = (bytes.take e.length).map rawByte ++ decodeRaw (bytes.drop e.length) := by
  obtain ⟨_, before, rest, heq, -, -, hpos, hle, -⟩ := exists_of_decodeFrom_eq_error h
  have hshorter : (bytes.drop e.length).length < bytes.length := by
    have hlength := congrArg List.length heq
    rw [List.length_append] at hlength
    rw [List.length_drop]
    omega
  rw [decodeRaw, decodeReplacing, decodeReplacing.go, h]
  dsimp only
  rw [hposition, List.take_zero, List.drop_zero, go_eq _ hshorter (Nat.lt_succ_self _)]
  rfl

/-- Bytes are read piece by piece between characters of one byte. -/
theorem decodeRaw_append {c : Char} (hc : c.toNat < 0x80) (bytes rest : Bytes) :
    decodeRaw (bytes ++ UInt8.ofNat c.toNat :: rest) = decodeRaw bytes ++ .scalar c :: decodeRaw rest := by
  have hone : encodeChar c = [UInt8.ofNat c.toNat] := by
    unfold encodeChar
    dsimp only
    rw [if_pos hc]
  have hbyte : (UInt8.ofNat c.toNat).toNat < 0x80 := by
    rw [toNat_byte (by omega)]
    exact hc
  induction hlength : bytes.length using Nat.strong_induction_on generalizing bytes with
  | _ length ih =>
    cases bytes with
    | nil =>
      have hread := decodeRaw_encodeChar c rest
      rwa [hone] at hread
    | cons byte bytes =>
      rcases decodeFrom_cons 0 byte bytes with ⟨other, more, heq, -⟩ |
        ⟨e, herror, hposition, hpos, hle, -⟩
      · have hshorter : more.length < length := hlength ▸ length_lt_of_encodeChar_append heq
        rw [heq, List.append_assoc, decodeRaw_encodeChar, decodeRaw_encodeChar, ih _ hshorter more rfl,
          List.cons_append]
      · obtain ⟨reason, herror'⟩ := decode_append herror hposition hbyte rest
        have hshorter : ((byte :: bytes).drop e.length).length < length := by
          rw [List.length_drop, hlength]
          omega
        rw [decodeRaw_of_refused herror hposition, decodeRaw_of_refused herror' hposition]
        dsimp only
        rw [List.take_append_of_le_length hle, List.drop_append_of_le_length hle,
          ih _ hshorter _ rfl, List.append_assoc]

/-! ## Texts -/

theorem encodeRawFrom_position {t : Text} {bytes : Bytes} {position : Nat}
    (h : encodeRawFrom position t = .ok bytes) (other : Nat) : encodeRawFrom other t = .ok bytes := by
  induction t generalizing position other bytes with
  | nil => exact h
  | cons c t ih =>
    obtain ⟨first, rest, hc, hrest, rfl⟩ := encodeRawFrom_cons_eq_ok_iff.1 h
    exact encodeRawFrom_cons_eq_ok_iff.2 ⟨first, rest, hc, ih hrest (other + 1), rfl⟩

theorem decodeRaw_of_encode {t : Text} {bytes : Bytes} (h : encode t = .ok bytes) : decodeRaw bytes = t := by
  rw [decodeRaw, decodeReplacing, decodeReplacing.go, decode_eq_of_encode_eq h]

/-- A text that can be written is read as its bytes are. -/
theorem asRead_eq {t : Text} {bytes : Bytes} (h : encodeRaw t = .ok bytes) : asRead t = decodeRaw bytes := by
  unfold asRead
  split
  · next hunicode =>
    have hencode := encodeFrom_of_isUnicode hunicode 0
    have hraw : encodeRaw t = .ok (encodeLossy t) := encodeRawFrom_of_encodeFrom hencode
    rw [Except.ok.inj (h.symm.trans hraw)]
    exact (decodeRaw_of_encode hencode).symm
  · rw [h]

/-- A text is read piece by piece between characters of one byte. -/
theorem asRead_append {s t : Text} {c : Char} (hc : c.toNat < 0x80) {bytes : Bytes}
    (h : encodeRaw (s ++ .scalar c :: t) = .ok bytes) :
    asRead (s ++ .scalar c :: t) = asRead s ++ .scalar c :: asRead t := by
  obtain ⟨first, second, position, hfirst, hsecond, rfl⟩ := exists_of_encodeRawFrom_append h
  obtain ⟨character, rest, hcharacter, hrest, rfl⟩ := encodeRawFrom_cons_eq_ok_iff.1 hsecond
  have hone : encodeChar c = [UInt8.ofNat c.toNat] := by
    unfold encodeChar
    dsimp only
    rw [if_pos hc]
  obtain rfl : [UInt8.ofNat c.toNat] = character := by rw [← hone]; exact Option.some.inj hcharacter
  rw [asRead_eq h, asRead_eq hfirst, asRead_eq (encodeRawFrom_position hrest 0)]
  exact decodeRaw_append hc first rest

theorem encodeRaw_asRead {t : Text} {bytes : Bytes} (h : encodeRaw t = .ok bytes) :
    encodeRaw (asRead t) = .ok bytes := by
  rw [asRead_eq h, encodeRaw_decodeRaw]

theorem eq_nil_of_encodeRawFrom {t : Text} {position : Nat} (h : encodeRawFrom position t = .ok []) :
    t = [] := by
  cases t with
  | nil => rfl
  | cons c t =>
    obtain ⟨first, rest, hc, -, happend⟩ := encodeRawFrom_cons_eq_ok_iff.1 h
    obtain ⟨rfl, -⟩ := List.append_eq_nil_iff.1 happend
    cases c with
    | scalar c =>
      have hlength : ([] : Bytes).length < ([] : Bytes).length :=
        length_lt_of_encodeChar_append (by rw [Option.some.inj hc]; rfl)
      cases hlength
    | surrogate offset =>
      obtain ⟨byte, -, hbyte⟩ := Option.map_eq_some_iff.1 hc
      cases hbyte

theorem asRead_ne_nil {t : Text} (h : t ≠ []) : asRead t ≠ [] := by
  cases hraw : encodeRaw t with
  | error e =>
    unfold asRead
    rw [hraw]
    split <;> exact h
  | ok bytes =>
    intro hnil
    have hempty := encodeRaw_asRead hraw
    rw [hnil] at hempty
    obtain rfl : [] = bytes := Except.ok.inj hempty
    exact h (eq_nil_of_encodeRawFrom hraw)

theorem mem_of_mem_asRead {t : Text} {c : Char} (hc : c.toNat < 0x80) (h : CodePoint.scalar c ∈ asRead t) :
    CodePoint.scalar c ∈ t := by
  cases hraw : encodeRaw t with
  | error e =>
    unfold asRead at h
    rw [hraw] at h
    split at h <;> exact h
  | ok bytes =>
    obtain ⟨before, after, heq⟩ := List.append_of_mem h
    have hread := encodeRaw_asRead hraw
    rw [heq] at hread
    obtain ⟨first, second, position, -, hsecond, rfl⟩ := exists_of_encodeRawFrom_append hread
    obtain ⟨character, rest, hcharacter, -, rfl⟩ := encodeRawFrom_cons_eq_ok_iff.1 hsecond
    have hone : character = [UInt8.ofNat c.toNat] := by
      rw [← Option.some.inj hcharacter, encodeChar]
      dsimp only
      rw [if_pos hc]
    exact mem_of_encodeRawFrom hraw (toNat_byte (by omega)) hc (by simp [hone])

end ModuleCatalog.Utf8
