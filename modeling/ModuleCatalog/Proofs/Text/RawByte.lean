import ModuleCatalog.Proofs.Text.Utf8
import ModuleCatalog.Text.RawByte

/-!
# Bytes read and written back

At the front of some bytes the decoder either reads a character, and these bytes are how it is encoded, or it
refuses at least one byte, and no refused byte is a character by itself. So decoding undoes encoding, and
bytes that are read with a surrogate for each refused byte are written back as they were.
-/

namespace ModuleCatalog.Utf8

/-! ## First bytes -/

/-- What is known of a character of which the first byte has been read. -/
structure Begun (position : Nat) (byte : UInt8) (p : Pending) : Prop where
  position_eq : p.position = position
  low : 0x80 ≤ p.low
  shape :
    (p.owed = 1 ∧ byte.toNat = 0xC0 + p.bits ∧ 2 ≤ p.bits ∧ p.bits < 32 ∧ p.high ≤ 0xBF) ∨
    (p.owed = 2 ∧ byte.toNat = 0xE0 + p.bits ∧ p.bits < 16 ∧ (p.bits = 0 → 0xA0 ≤ p.low) ∧
      p.high ≤ 0xBF ∧ (p.bits = 13 → p.high ≤ 0x9F)) ∨
    (p.owed = 3 ∧ byte.toNat = 0xF0 + p.bits ∧ p.bits < 5 ∧ (p.bits = 0 → 0x90 ≤ p.low) ∧
      p.high ≤ 0xBF ∧ (p.bits = 4 → p.high ≤ 0x8F))

theorem lead_eq_none {position : Nat} {byte : UInt8} (h : lead position byte = none) :
    0x80 ≤ byte.toNat := by
  by_contra hsmall
  simp only [lead] at h
  rw [if_pos (by omega)] at h
  cases h

theorem lead_eq_inl {position : Nat} {byte : UInt8} {c : CodePoint}
    (h : lead position byte = some (.inl c)) :
    byte.toNat < 0x80 ∧ c = .scalar (Char.ofNat byte.toNat) := by
  simp only [lead] at h
  split at h
  · next hsmall => exact ⟨hsmall, (Sum.inl.inj (Option.some.inj h)).symm⟩
  · repeat' split at h
    all_goals cases h

theorem lead_eq_inr {position : Nat} {byte : UInt8} {p : Pending}
    (h : lead position byte = some (.inr p)) : Begun position byte p := by
  simp only [lead] at h
  repeat' split at h
  all_goals cases h
  all_goals
    refine ⟨rfl, by simp, ?_⟩
    dsimp only
    omega

/-! ## Further bytes -/

/-- The number that the bits read so far and further bytes make. -/
def valueOf (bits : Nat) (bytes : Bytes) : Nat :=
  bytes.foldl (fun bits byte => bits * 64 + (byte.toNat - 0x80)) bits

theorem valueOf_cons (bits : Nat) (byte : UInt8) (bytes : Bytes) :
    valueOf bits (byte :: bytes) = valueOf (bits * 64 + (byte.toNat - 0x80)) bytes :=
  List.foldl_cons ..

/-- Whether bytes go on with a character: the first of them is between two bounds. -/
def GoOn (low high : Nat) : Bytes → Prop
  | [] => True
  | byte :: bytes => (low ≤ byte.toNat ∧ byte.toNat ≤ high) ∧ GoOn 0x80 0xBF bytes

/-- What the decoder does with the bytes behind the beginning of a character: it takes as many as are owed,
or it refuses them after some of them. -/
theorem decodeFrom_some {p : Pending} (howed : 1 ≤ p.owed) (hlow : 0x80 ≤ p.low) (position : Nat)
    (bytes : Bytes) :
    (∃ more rest, bytes = more ++ rest ∧ more.length = p.owed ∧ GoOn p.low p.high more ∧
      decodeFrom position (some p) bytes =
        (decodeFrom (position + p.owed) none rest).map
          (CodePoint.scalar (Char.ofNat (valueOf p.bits more)) :: ·)) ∨
    (∃ reason count, count ≤ bytes.length ∧ (∀ byte ∈ bytes.take count, 0x80 ≤ byte.toNat) ∧
      decodeFrom position (some p) bytes =
        .error ⟨reason, p.position, position + count - p.position, p.first⟩) := by
  induction bytes generalizing p position with
  | nil => exact .inr ⟨.unexpectedEnd, 0, le_rfl, by simp, rfl⟩
  | cons byte bytes ih =>
    rw [decodeFrom]
    dsimp only
    by_cases hbyte : p.low ≤ byte.toNat ∧ byte.toNat ≤ p.high
    · rw [if_pos hbyte]
      by_cases hlast : p.owed ≤ 1
      · rw [if_pos hlast]
        have hone : p.owed = 1 := by omega
        refine .inl ⟨[byte], bytes, rfl, hone.symm, ⟨hbyte, trivial⟩, ?_⟩
        rw [hone, valueOf, List.foldl_cons, List.foldl_nil]
      · rw [if_neg hlast]
        let next : Pending :=
          { p with bits := p.bits * 64 + (byte.toNat - 0x80), owed := p.owed - 1, low := 0x80, high := 0xBF }
        have hnext : 1 ≤ next.owed := by dsimp only [next]; omega
        rcases ih hnext le_rfl (position + 1) with ⟨more, rest, rfl, hlength, hmore, heq⟩ |
          ⟨reason, count, hcount, hlarge, heq⟩
        · refine .inl ⟨byte :: more, rest, rfl, ?_, ⟨hbyte, hmore⟩, ?_⟩
          · rw [List.length_cons, hlength]
            dsimp only [next]
            omega
          · have hposition : position + 1 + next.owed = position + p.owed := by dsimp only [next]; omega
            rw [heq, hposition, valueOf_cons]
        · refine .inr ⟨reason, count + 1, Nat.succ_le_succ hcount, ?_, ?_⟩
          · intro other hother
            rw [List.take_succ_cons] at hother
            rcases List.mem_cons.1 hother with rfl | hother
            · exact le_trans hlow hbyte.1
            · exact hlarge other hother
          · rw [heq, Nat.add_right_comm position 1 count, Nat.add_assoc position count 1]
    · rw [if_neg hbyte]
      exact .inr ⟨.invalidContinuation, 0, Nat.zero_le _, by simp, rfl⟩

/-! ## Characters -/

theorem toNat_ofNat {n : Nat} (h : n.isValidChar) : (Char.ofNat n).toNat = n := by
  rw [Char.ofNat, dif_pos h]
  rfl

theorem ofNat_eq_of_toNat {n : Nat} {byte : UInt8} (h : byte.toNat = n) : UInt8.ofNat n = byte := by
  rw [← h, UInt8.ofNat_toNat]

theorem encodeChar_two {byte second : UInt8} {k : Nat} (hbyte : byte.toNat = 0xC0 + k) (hlow : 2 ≤ k)
    (hhigh : k < 32) (hsecond : 0x80 ≤ second.toNat ∧ second.toNat ≤ 0xBF) :
    encodeChar (Char.ofNat (valueOf k [second])) = [byte, second] := by
  have hvalue : valueOf k [second] = k * 64 + (second.toNat - 0x80) := rfl
  rw [encodeChar, toNat_ofNat (.inl (by omega)), hvalue]
  dsimp only
  rw [if_neg (by omega), if_pos (by omega), ofNat_eq_of_toNat (by omega : byte.toNat = _),
    ofNat_eq_of_toNat (by omega : second.toNat = _)]

theorem encodeChar_three {byte second third : UInt8} {k : Nat} (hbyte : byte.toNat = 0xE0 + k)
    (hk : k < 16) (hsecond : 0x80 ≤ second.toNat ∧ second.toNat ≤ 0xBF)
    (hthird : 0x80 ≤ third.toNat ∧ third.toNat ≤ 0xBF) (hshort : k = 0 → 0xA0 ≤ second.toNat)
    (hsurrogate : k = 13 → second.toNat ≤ 0x9F) :
    encodeChar (Char.ofNat (valueOf k [second, third])) = [byte, second, third] := by
  have hvalue : valueOf k [second, third] =
      (k * 64 + (second.toNat - 0x80)) * 64 + (third.toNat - 0x80) := rfl
  rw [encodeChar, toNat_ofNat (by rw [hvalue, Nat.isValidChar]; omega), hvalue]
  dsimp only
  rw [if_neg (by omega), if_neg (by omega), if_pos (by omega),
    ofNat_eq_of_toNat (by omega : byte.toNat = _), ofNat_eq_of_toNat (by omega : second.toNat = _),
    ofNat_eq_of_toNat (by omega : third.toNat = _)]

theorem encodeChar_four {byte second third fourth : UInt8} {k : Nat} (hbyte : byte.toNat = 0xF0 + k)
    (hk : k < 5) (hsecond : 0x80 ≤ second.toNat ∧ second.toNat ≤ 0xBF)
    (hthird : 0x80 ≤ third.toNat ∧ third.toNat ≤ 0xBF)
    (hfourth : 0x80 ≤ fourth.toNat ∧ fourth.toNat ≤ 0xBF) (hshort : k = 0 → 0x90 ≤ second.toNat)
    (hlast : k = 4 → second.toNat ≤ 0x8F) :
    encodeChar (Char.ofNat (valueOf k [second, third, fourth])) = [byte, second, third, fourth] := by
  have hvalue : valueOf k [second, third, fourth] =
      ((k * 64 + (second.toNat - 0x80)) * 64 + (third.toNat - 0x80)) * 64 + (fourth.toNat - 0x80) := rfl
  rw [encodeChar, toNat_ofNat (by rw [hvalue, Nat.isValidChar]; omega), hvalue]
  dsimp only
  rw [if_neg (by omega), if_neg (by omega), if_neg (by omega),
    ofNat_eq_of_toNat (by omega : byte.toNat = _), ofNat_eq_of_toNat (by omega : second.toNat = _),
    ofNat_eq_of_toNat (by omega : third.toNat = _), ofNat_eq_of_toNat (by omega : fourth.toNat = _)]

/-- The bytes of a character that has been read are those it is encoded as. -/
theorem encodeChar_valueOf {position : Nat} {byte : UInt8} {p : Pending} (h : Begun position byte p)
    {more : Bytes} (hlength : more.length = p.owed) (hmore : GoOn p.low p.high more) :
    encodeChar (Char.ofNat (valueOf p.bits more)) = byte :: more := by
  have hsecond : ∀ second rest, more = second :: rest → p.low ≤ second.toNat ∧ second.toNat ≤ p.high := by
    rintro second rest rfl
    exact hmore.1
  have hlow := h.low
  rcases h.shape with ⟨howed, hbyte, hbits, hbits', hhigh⟩ |
    ⟨howed, hbyte, hbits, hshort, hhigh, hsurrogate⟩ | ⟨howed, hbyte, hbits, hshort, hhigh, hlast⟩
  · obtain ⟨second, rfl⟩ := List.length_eq_one_iff.1 (hlength.trans howed)
    have := hsecond second [] rfl
    exact encodeChar_two hbyte hbits hbits' (by omega)
  · obtain ⟨second, third, rfl⟩ := List.length_eq_two.1 (hlength.trans howed)
    have := hsecond second [third] rfl
    exact encodeChar_three hbyte hbits (by omega) hmore.2.1 (by omega) (by omega)
  · obtain ⟨second, third, fourth, rfl⟩ := List.length_eq_three.1 (hlength.trans howed)
    have := hsecond second [third, fourth] rfl
    exact encodeChar_four hbyte hbits (by omega) hmore.2.1 hmore.2.2.1 (by omega) (by omega)

/-- At the front of bytes the decoder reads a character, or it refuses some of the bytes, none of which is a
character by itself. -/
theorem decodeFrom_cons (position : Nat) (byte : UInt8) (bytes : Bytes) :
    (∃ c rest, byte :: bytes = encodeChar c ++ rest ∧ decodeFrom position none (byte :: bytes) =
      (decodeFrom (position + (encodeChar c).length) none rest).map (CodePoint.scalar c :: ·)) ∨
    (∃ e, decodeFrom position none (byte :: bytes) = .error e ∧ e.position = position ∧ 1 ≤ e.length ∧
      e.length ≤ (byte :: bytes).length ∧ ∀ other ∈ (byte :: bytes).take e.length, 0x80 ≤ other.toNat) := by
  rw [decodeFrom]
  cases hlead : lead position byte with
  | none =>
    refine .inr ⟨_, rfl, rfl, le_rfl, by simp, ?_⟩
    simpa using lead_eq_none hlead
  | some front =>
    cases front with
    | inl c =>
      obtain ⟨hsmall, rfl⟩ := lead_eq_inl hlead
      have hencode : encodeChar (Char.ofNat byte.toNat) = [byte] := by
        rw [encodeChar, toNat_ofNat (.inl (by omega))]
        dsimp only
        rw [if_pos hsmall, UInt8.ofNat_toNat]
      exact .inl ⟨_, bytes, by rw [hencode]; rfl, by rw [hencode]; rfl⟩
    | inr p =>
      have hbegun := lead_eq_inr hlead
      have howed : 1 ≤ p.owed := by
        have := hbegun.shape
        omega
      rcases decodeFrom_some howed hbegun.low (position + 1) bytes with
        ⟨more, rest, rfl, hlength, hmore, heq⟩ | ⟨reason, count, hcount, hlarge, heq⟩
      · have hencode := encodeChar_valueOf hbegun hlength hmore
        refine .inl ⟨Char.ofNat (valueOf p.bits more), rest, by rw [hencode]; rfl, ?_⟩
        dsimp only
        rw [heq, hencode, List.length_cons, hlength, Nat.add_assoc position 1 p.owed, Nat.add_comm 1 p.owed]
      · have hposition : position + 1 + count - p.position = count + 1 := by
          rw [hbegun.position_eq]
          omega
        refine .inr ⟨_, heq, hbegun.position_eq, ?_, ?_, ?_⟩
        · rw [hposition]
          exact Nat.succ_pos count
        · rw [hposition]
          exact Nat.succ_le_succ hcount
        · rw [hposition]
          intro other hother
          rw [List.take_succ_cons] at hother
          rcases List.mem_cons.1 hother with rfl | hother
          · have := hbegun.shape
            omega
          · exact hlarge other hother

/-! ## Whole texts -/

theorem length_lt_of_encodeChar_append {c : Char} {bytes rest : Bytes} (h : bytes = encodeChar c ++ rest) :
    rest.length < bytes.length := by
  have hpos : 0 < (encodeChar c).length := by
    unfold encodeChar
    dsimp only
    split_ifs <;> simp
  rw [h, List.length_append]
  omega

/-- Bytes that are decoded as a text are those the text is encoded as. -/
theorem encodeFrom_of_decodeFrom {start : Nat} {bytes : Bytes} {t : Text}
    (h : decodeFrom start none bytes = .ok t) (position : Nat) : encodeFrom position t = .ok bytes := by
  induction hlength : bytes.length using Nat.strong_induction_on generalizing start bytes t position with
  | _ length ih =>
    cases bytes with
    | nil =>
      obtain rfl := Except.ok.inj h
      rfl
    | cons byte bytes =>
      rcases decodeFrom_cons start byte bytes with ⟨c, rest, heq, hdecode⟩ | ⟨e, herror, -⟩
      · rw [hdecode] at h
        obtain ⟨t, hrest, rfl⟩ := map_eq_ok_iff.1 h
        have hshorter : rest.length < length := hlength ▸ length_lt_of_encodeChar_append heq
        rw [heq]
        exact encodeFrom_cons (ih _ hshorter hrest (position + 1) rfl) c
      · rw [herror] at h
        cases h

theorem decode_eq_ok_iff {bytes : Bytes} {t : Text} : decode bytes = .ok t ↔ encode t = .ok bytes :=
  ⟨fun h => encodeFrom_of_decodeFrom h 0, decode_eq_of_encode_eq⟩

/-- What a refusal says: the bytes before its position are a text, and of those from there on it names at
least one, but none that is a character by itself. -/
theorem exists_of_decodeFrom_eq_error {start : Nat} {bytes : Bytes} {e : DecodeError}
    (h : decodeFrom start none bytes = .error e) :
    ∃ t before rest, bytes = before ++ rest ∧ (∀ position, encodeFrom position t = .ok before) ∧
      e.position = start + before.length ∧ 1 ≤ e.length ∧ e.length ≤ rest.length ∧
      ∀ byte ∈ rest.take e.length, 0x80 ≤ byte.toNat := by
  induction hlength : bytes.length using Nat.strong_induction_on generalizing start bytes with
  | _ length ih =>
    cases bytes with
    | nil => cases h
    | cons byte bytes =>
      rcases decodeFrom_cons start byte bytes with ⟨c, rest, heq, hdecode⟩ |
        ⟨e', herror, hposition, hpos, hle, hlarge⟩
      · rw [hdecode, map_eq_error_iff] at h
        have hshorter : rest.length < length := hlength ▸ length_lt_of_encodeChar_append heq
        obtain ⟨t, before, rest, rfl, hbefore, hposition, hrest⟩ := ih _ hshorter h rfl
        refine ⟨.scalar c :: t, encodeChar c ++ before, rest, by rw [heq, List.append_assoc],
          fun position => encodeFrom_cons (hbefore (position + 1)) c, ?_, hrest⟩
        rw [hposition, List.length_append, Nat.add_assoc]
      · obtain rfl := Except.error.inj (herror.symm.trans h)
        exact ⟨[], [], byte :: bytes, rfl, fun _ => rfl, hposition, hpos, hle, hlarge⟩

/-! ## Refused bytes -/

/-- The bytes that a character or the surrogate of a byte is written as. -/
def rawBytes? : CodePoint → Option Bytes
  | .scalar c => some (encodeChar c)
  | .surrogate offset => (rawByte? (.surrogate offset)).map ([·])

theorem encodeRawFrom_cons_eq_ok_iff {position : Nat} {c : CodePoint} {t : Text} {bytes : Bytes} :
    encodeRawFrom position (c :: t) = .ok bytes ↔ ∃ first rest, rawBytes? c = some first ∧
      encodeRawFrom (position + 1) t = .ok rest ∧ first ++ rest = bytes := by
  cases c with
  | scalar c =>
    rw [encodeRawFrom, map_eq_ok_iff]
    simp [rawBytes?]
  | surrogate offset =>
    rw [encodeRawFrom]
    cases hbyte : rawByte? (.surrogate offset) with
    | some byte => simp [rawBytes?, hbyte, map_eq_ok_iff]
    | none => simp [rawBytes?, hbyte]

theorem encodeRawFrom_append {s t : Text} {first second : Bytes} {position : Nat}
    (hs : encodeRawFrom position s = .ok first)
    (ht : ∀ position, encodeRawFrom position t = .ok second) :
    encodeRawFrom position (s ++ t) = .ok (first ++ second) := by
  induction s generalizing position first with
  | nil =>
    obtain rfl := Except.ok.inj hs
    exact ht position
  | cons c s ih =>
    obtain ⟨bytes, rest, hc, hrest, rfl⟩ := encodeRawFrom_cons_eq_ok_iff.1 hs
    rw [List.cons_append, List.append_assoc]
    exact encodeRawFrom_cons_eq_ok_iff.2 ⟨bytes, rest ++ second, hc, ih hrest, rfl⟩

theorem exists_of_encodeRawFrom_append {s t : Text} {bytes : Bytes} {position : Nat}
    (h : encodeRawFrom position (s ++ t) = .ok bytes) :
    ∃ first second position', encodeRawFrom position s = .ok first ∧
      encodeRawFrom position' t = .ok second ∧ first ++ second = bytes := by
  induction s generalizing position bytes with
  | nil => exact ⟨[], bytes, position, rfl, h, rfl⟩
  | cons c s ih =>
    rw [List.cons_append] at h
    obtain ⟨bytes, rest, hc, hrest, rfl⟩ := encodeRawFrom_cons_eq_ok_iff.1 h
    obtain ⟨first, second, position', hfirst, hsecond, rfl⟩ := ih hrest
    exact ⟨bytes ++ first, second, position',
      encodeRawFrom_cons_eq_ok_iff.2 ⟨bytes, first, hc, hfirst, rfl⟩, hsecond, List.append_assoc ..⟩

theorem encodeRawFrom_of_encodeFrom {t : Text} {bytes : Bytes} {position position' : Nat}
    (h : encodeFrom position t = .ok bytes) : encodeRawFrom position' t = .ok bytes := by
  induction t generalizing position position' bytes with
  | nil => exact h
  | cons c t ih =>
    obtain ⟨character, rest, rfl, hrest, rfl⟩ := encodeFrom_cons_eq_ok h
    exact encodeRawFrom_cons_eq_ok_iff.2 ⟨_, rest, rfl, ih hrest, rfl⟩

theorem rawByte?_rawByte {byte : UInt8} (h : 0x80 ≤ byte.toNat) :
    ∃ offset, rawByte byte = .surrogate offset ∧ rawByte? (.surrogate offset) = some byte := by
  have hbyte := byte.toNat_lt
  have hrange : 0xD800 ≤ 0xDC00 + byte.toNat ∧ 0xDC00 + byte.toNat < 0xE000 := by omega
  have hvalid : ¬ (0xDC00 + byte.toNat).isValidChar := by
    rw [Nat.isValidChar]
    omega
  refine ⟨⟨0xDC00 + byte.toNat - 0xD800, by omega⟩, ?_, ?_⟩
  · exact congrArg (fun c => Option.getD c _) ((if_neg hvalid).trans (dif_pos hrange))
  · rw [rawByte?]
    dsimp only
    rw [if_pos (by omega), ofNat_eq_of_toNat (by omega : byte.toNat = _)]

theorem encodeRawFrom_map_rawByte {bytes : Bytes} (h : ∀ byte ∈ bytes, 0x80 ≤ byte.toNat) (position : Nat) :
    encodeRawFrom position (bytes.map rawByte) = .ok bytes := by
  induction bytes generalizing position with
  | nil => rfl
  | cons byte bytes ih =>
    obtain ⟨offset, hraw, hbyte⟩ := rawByte?_rawByte (h byte List.mem_cons_self)
    have hrest := ih (fun other hother => h other (List.mem_cons_of_mem _ hother)) (position + 1)
    rw [List.map_cons, hraw]
    exact encodeRawFrom_cons_eq_ok_iff.2 ⟨[byte], bytes, by rw [rawBytes?, hbyte, Option.map_some], hrest, rfl⟩

theorem encodeRawFrom_go {fuel : Nat} {bytes : Bytes} (h : bytes.length < fuel) (position : Nat) :
    encodeRawFrom position (decodeReplacing.go (fun refused => refused.map rawByte) fuel bytes) =
      .ok bytes := by
  induction fuel generalizing bytes position with
  | zero => cases h
  | succ fuel ih =>
    rw [decodeReplacing.go]
    cases hdecode : decode bytes with
    | ok t => exact encodeRawFrom_of_encodeFrom (decode_eq_ok_iff.1 hdecode)
    | error e =>
      obtain ⟨t, before, rest, rfl, hbefore, hposition, hpos, hle, hlarge⟩ :=
        exists_of_decodeFrom_eq_error hdecode
      rw [Nat.zero_add] at hposition
      have htext : decode before = .ok t := decode_eq_of_encode_eq (hbefore 0)
      have hshorter : (rest.drop e.length).length < fuel := by
        rw [List.length_drop]
        rw [List.length_append] at h
        omega
      dsimp only
      rw [hposition, List.take_left, List.drop_left, htext]
      dsimp only
      rw [List.append_assoc]
      refine (encodeRawFrom_append (encodeRawFrom_of_encodeFrom (hbefore 0)) fun position => ?_)
      rw [encodeRawFrom_append (encodeRawFrom_map_rawByte hlarge position) (ih hshorter),
        List.take_append_drop]

/-- Bytes are written back as they were read. -/
theorem encodeRaw_decodeRaw (bytes : Bytes) : encodeRaw (decodeRaw bytes) = .ok bytes :=
  encodeRawFrom_go (Nat.lt_succ_self bytes.length) 0

/-! ## Sizes and single bytes -/

theorem length_encodeLossy {t : Text} {bytes : Bytes} {position : Nat}
    (h : encodeRawFrom position t = .ok bytes) : (encodeLossy t).length = bytes.length := by
  induction t generalizing position bytes with
  | nil =>
    obtain rfl := Except.ok.inj h
    rfl
  | cons c t ih =>
    obtain ⟨first, rest, hc, hrest, rfl⟩ := encodeRawFrom_cons_eq_ok_iff.1 h
    rw [encodeLossy, List.flatMap_cons, ← encodeLossy, List.length_append, List.length_append, ih hrest]
    cases c with
    | scalar c => rw [← Option.some.inj hc]
    | surrogate offset =>
      obtain ⟨byte, -, rfl⟩ := Option.map_eq_some_iff.1 hc
      rfl

theorem toNat_of_rawByte? {offset : Fin 2048} {byte : UInt8}
    (h : rawByte? (.surrogate offset) = some byte) : 0x80 ≤ byte.toNat := by
  rw [rawByte?] at h
  split at h
  · next hrange =>
    rw [← Option.some.inj h, toNat_byte (by omega)]
    omega
  · cases h

/-- A byte that is a character by itself is written for that character only. -/
theorem mem_of_encodeRawFrom {t : Text} {bytes : Bytes} {position : Nat} {c : Char} {byte : UInt8}
    (h : encodeRawFrom position t = .ok bytes) (hbyte : byte.toNat = c.toNat) (hc : c.toNat < 0x80)
    (hmem : byte ∈ bytes) : CodePoint.scalar c ∈ t := by
  induction t generalizing position bytes with
  | nil =>
    obtain rfl := Except.ok.inj h
    cases hmem
  | cons other t ih =>
    obtain ⟨first, rest, hother, hrest, rfl⟩ := encodeRawFrom_cons_eq_ok_iff.1 h
    rcases List.mem_append.1 hmem with hfirst | hrest'
    · cases other with
      | scalar other =>
        rw [← Option.some.inj hother] at hfirst
        have hsame : other.toNat = byte.toNat := toNat_eq_of_mem_encodeChar hfirst (by omega)
        rw [Char.toNat_inj.1 (hsame.trans hbyte)]
        exact List.mem_cons_self
      | surrogate offset =>
        obtain ⟨raw, hraw, rfl⟩ := Option.map_eq_some_iff.1 hother
        have hlarge := toNat_of_rawByte? hraw
        rw [← List.mem_singleton.1 hfirst] at hlarge
        omega
    · exact List.mem_cons_of_mem _ (ih hrest hrest')

end ModuleCatalog.Utf8
