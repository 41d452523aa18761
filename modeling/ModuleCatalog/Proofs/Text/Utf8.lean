import Mathlib.Data.Char
import ModuleCatalog.Proofs.Fallible
import ModuleCatalog.Text.Utf8

/-!
# UTF-8 read back

The bytes of a text are decoded as that text. A character of one to four bytes is followed through the
states of the decoder; the bounds of the second byte are met because overlong forms and surrogates do not
come up.
-/

namespace ModuleCatalog.Utf8

/-! ## Single bytes -/

theorem toNat_byte {n : Nat} (h : n < 256) : (UInt8.ofNat n).toNat = n := UInt8.toNat_ofNat_of_lt' h

theorem decodeFrom_lead {position : Nat} {byte : UInt8} {p : Pending}
    (h : lead position byte = some (.inr p)) (bytes : Bytes) :
    decodeFrom position none (byte :: bytes) = decodeFrom (position + 1) (some p) bytes := by
  rw [decodeFrom, h]

theorem decodeFrom_more {position b : Nat} {p : Pending} (bytes : Bytes) (hb : b < 256) (hlow : p.low ≤ b)
    (hhigh : b ≤ p.high) (howed : 1 < p.owed) :
    decodeFrom position (some p) (UInt8.ofNat b :: bytes) = decodeFrom (position + 1)
      (some { p with bits := p.bits * 64 + (b - 0x80), owed := p.owed - 1, low := 0x80, high := 0xBF })
      bytes := by
  rw [decodeFrom]
  simp only [toNat_byte hb]
  rw [if_pos ⟨hlow, hhigh⟩, if_neg (Nat.not_le.2 howed)]

theorem decodeFrom_last {position b : Nat} {p : Pending} (bytes : Bytes) (hb : b < 256) (hlow : p.low ≤ b)
    (hhigh : b ≤ p.high) (howed : p.owed ≤ 1) :
    decodeFrom position (some p) (UInt8.ofNat b :: bytes) =
      (decodeFrom (position + 1) none bytes).map
        (CodePoint.scalar (Char.ofNat (p.bits * 64 + (b - 0x80))) :: ·) := by
  rw [decodeFrom]
  simp only [toNat_byte hb]
  rw [if_pos ⟨hlow, hhigh⟩, if_pos howed]

/-! ## First bytes -/

theorem lead_one (position : Nat) {n : Nat} (h : n < 0x80) :
    lead position (UInt8.ofNat n) = some (.inl (.scalar (Char.ofNat n))) := by
  simp only [lead, toNat_byte (show n < 256 by omega)]
  rw [if_pos h]

theorem lead_two (position : Nat) {k : Nat} (hlow : 2 ≤ k) (hhigh : k < 32) :
    lead position (UInt8.ofNat (0xC0 + k)) =
      some (.inr ⟨position, UInt8.ofNat (0xC0 + k), k, 1, 0x80, 0xBF⟩) := by
  simp only [lead, toNat_byte (show 0xC0 + k < 256 by omega)]
  rw [if_neg (by omega), if_pos (by omega), Nat.add_sub_cancel_left]

/-- The first of three bytes, with bounds that the second one keeps unless the form is overlong or that of
a surrogate. -/
theorem lead_three (position k second : Nat) (hk : k < 16) (hlow : 0x80 ≤ second)
    (hhigh : second ≤ 0xBF) (hshort : k = 0 → 0xA0 ≤ second) (hsurrogate : k = 13 → second ≤ 0x9F) :
    ∃ low high, lead position (UInt8.ofNat (0xE0 + k)) =
      some (.inr ⟨position, UInt8.ofNat (0xE0 + k), k, 2, low, high⟩) ∧ low ≤ second ∧ second ≤ high := by
  simp only [lead, toNat_byte (show 0xE0 + k < 256 by omega)]
  rw [if_neg (by omega), if_neg (by omega)]
  by_cases hzero : k = 0
  · subst hzero
    exact ⟨0xA0, 0xBF, rfl, hshort rfl, hhigh⟩
  · rw [if_neg (by omega)]
    by_cases hthirteen : k = 13
    · subst hthirteen
      exact ⟨0x80, 0x9F, rfl, hlow, hsurrogate rfl⟩
    · rw [if_neg (by omega), if_pos (by omega), Nat.add_sub_cancel_left]
      exact ⟨0x80, 0xBF, rfl, hlow, hhigh⟩

theorem lead_four (position k second : Nat) (hk : k < 5) (hlow : 0x80 ≤ second)
    (hhigh : second ≤ 0xBF) (hshort : k = 0 → 0x90 ≤ second) (hlast : k = 4 → second ≤ 0x8F) :
    ∃ low high, lead position (UInt8.ofNat (0xF0 + k)) =
      some (.inr ⟨position, UInt8.ofNat (0xF0 + k), k, 3, low, high⟩) ∧ low ≤ second ∧ second ≤ high := by
  simp only [lead, toNat_byte (show 0xF0 + k < 256 by omega)]
  rw [if_neg (by omega), if_neg (by omega), if_neg (by omega), if_neg (by omega), if_neg (by omega)]
  by_cases hzero : k = 0
  · subst hzero
    exact ⟨0x90, 0xBF, rfl, hshort rfl, hhigh⟩
  · rw [if_neg (by omega)]
    by_cases hfour : k = 4
    · subst hfour
      exact ⟨0x80, 0x8F, rfl, hlow, hlast rfl⟩
    · rw [if_pos (by omega), Nat.add_sub_cancel_left]
      exact ⟨0x80, 0xBF, rfl, hlow, hhigh⟩

/-! ## Characters -/

theorem toNat_bounds (c : Char) : c.toNat < 0xD800 ∨ 0xDFFF < c.toNat ∧ c.toNat < 0x110000 := c.valid

theorem decodeFrom_two (position : Nat) {n : Nat} (hlow : 0x80 ≤ n) (hhigh : n < 0x800) (rest : Bytes) :
    decodeFrom position none (UInt8.ofNat (0xC0 + n / 64) :: UInt8.ofNat (0x80 + n / 1 % 64) :: rest) =
      (decodeFrom (position + 2) none rest).map (CodePoint.scalar (Char.ofNat n) :: ·) := by
  have hbits : n / 64 * 64 + (0x80 + n / 1 % 64 - 0x80) = n := by omega
  rw [decodeFrom_lead (lead_two position (by omega) (by omega)),
    decodeFrom_last rest (by omega) (by simp) (by dsimp only; omega) (by simp)]
  dsimp only
  rw [hbits]

theorem decodeFrom_three (position : Nat) {n : Nat} (hlow : 0x800 ≤ n) (hhigh : n < 0x10000)
    (hsurrogate : n < 0xD800 ∨ 0xDFFF < n) (rest : Bytes) :
    decodeFrom position none (UInt8.ofNat (0xE0 + n / 4096) :: UInt8.ofNat (0x80 + n / 64 % 64) ::
      UInt8.ofNat (0x80 + n / 1 % 64) :: rest) =
      (decodeFrom (position + 3) none rest).map (CodePoint.scalar (Char.ofNat n) :: ·) := by
  have hbits : (n / 4096 * 64 + (0x80 + n / 64 % 64 - 0x80)) * 64 + (0x80 + n / 1 % 64 - 0x80) = n := by
    omega
  obtain ⟨low, high, hlead, hsecond, hsecond'⟩ := lead_three position (n / 4096)
    (0x80 + n / 64 % 64) (by omega) (by omega) (by omega) (by omega) (by omega)
  rw [decodeFrom_lead hlead, decodeFrom_more _ (by omega) hsecond hsecond' (by simp),
    decodeFrom_last rest (by omega) (by simp) (by dsimp only; omega) (by simp)]
  dsimp only
  rw [hbits]

theorem decodeFrom_four (position : Nat) {n : Nat} (hlow : 0x10000 ≤ n) (hhigh : n < 0x110000)
    (rest : Bytes) :
    decodeFrom position none (UInt8.ofNat (0xF0 + n / 262144) :: UInt8.ofNat (0x80 + n / 4096 % 64) ::
      UInt8.ofNat (0x80 + n / 64 % 64) :: UInt8.ofNat (0x80 + n / 1 % 64) :: rest) =
      (decodeFrom (position + 4) none rest).map (CodePoint.scalar (Char.ofNat n) :: ·) := by
  have hbits : ((n / 262144 * 64 + (0x80 + n / 4096 % 64 - 0x80)) * 64 +
      (0x80 + n / 64 % 64 - 0x80)) * 64 + (0x80 + n / 1 % 64 - 0x80) = n := by omega
  obtain ⟨low, high, hlead, hsecond, hsecond'⟩ := lead_four position (n / 262144)
    (0x80 + n / 4096 % 64) (by omega) (by omega) (by omega) (by omega) (by omega)
  rw [decodeFrom_lead hlead, decodeFrom_more _ (by omega) hsecond hsecond' (by simp),
    decodeFrom_more _ (by omega) (by simp) (by dsimp only; omega) (by simp),
    decodeFrom_last rest (by omega) (by simp) (by dsimp only; omega) (by simp)]
  dsimp only
  rw [hbits]

theorem decodeFrom_encodeChar (c : Char) (position : Nat) (rest : Bytes) :
    decodeFrom position none (encodeChar c ++ rest) =
      (decodeFrom (position + (encodeChar c).length) none rest).map (CodePoint.scalar c :: ·) := by
  have hbounds := toNat_bounds c
  have hc : Char.ofNat c.toNat = c := Char.ofNat_toNat c
  unfold encodeChar
  generalize c.toNat = n at hbounds hc
  subst hc
  dsimp only
  by_cases hone : n < 0x80
  · rw [if_pos hone, List.singleton_append, decodeFrom, lead_one position hone]
    rfl
  rw [if_neg hone]
  by_cases htwo : n < 0x800
  · rw [if_pos htwo]
    exact decodeFrom_two position (Nat.not_lt.1 hone) htwo rest
  rw [if_neg htwo]
  by_cases hthree : n < 0x10000
  · rw [if_pos hthree]
    exact decodeFrom_three position (Nat.not_lt.1 htwo) hthree (by omega) rest
  · rw [if_neg hthree]
    exact decodeFrom_four position (Nat.not_lt.1 hthree) (by omega) rest

/-- A byte that is a character by itself stands for no part of another one. -/
theorem toNat_eq_of_mem_encodeChar {c : Char} {byte : UInt8} (hmem : byte ∈ encodeChar c)
    (hbyte : byte.toNat < 0x80) : c.toNat = byte.toNat := by
  have hlarge : ∀ k, 0x80 ≤ k → k < 256 → byte ≠ UInt8.ofNat k := by
    rintro k hlow hhigh rfl
    rw [toNat_byte hhigh] at hbyte
    omega
  have hbounds := toNat_bounds c
  unfold encodeChar at hmem
  generalize c.toNat = n at hbounds hmem
  dsimp only at hmem
  by_cases hone : n < 0x80
  · rw [if_pos hone, List.mem_singleton] at hmem
    rw [hmem, toNat_byte (by omega)]
  rw [if_neg hone] at hmem
  by_cases htwo : n < 0x800
  · rw [if_pos htwo] at hmem
    simp only [List.mem_cons, List.not_mem_nil, or_false] at hmem
    rcases hmem with h | h <;> exact absurd h (hlarge _ (by omega) (by omega))
  rw [if_neg htwo] at hmem
  by_cases hthree : n < 0x10000
  · rw [if_pos hthree] at hmem
    simp only [List.mem_cons, List.not_mem_nil, or_false] at hmem
    rcases hmem with h | h | h <;> exact absurd h (hlarge _ (by omega) (by omega))
  · rw [if_neg hthree] at hmem
    simp only [List.mem_cons, List.not_mem_nil, or_false] at hmem
    rcases hmem with h | h | h | h <;> exact absurd h (hlarge _ (by omega) (by omega))

/-! ## Texts -/

theorem encodeFrom_cons_eq_ok {position : Nat} {c : CodePoint} {t : Text} {bytes : Bytes}
    (h : encodeFrom position (c :: t) = .ok bytes) :
    ∃ character rest, c = .scalar character ∧ encodeFrom (position + 1) t = .ok rest ∧
      bytes = encodeChar character ++ rest := by
  cases c with
  | surrogate offset => cases h
  | scalar character =>
    rw [encodeFrom] at h
    obtain ⟨rest, hrest, rfl⟩ := map_eq_ok_iff.1 h
    exact ⟨character, rest, rfl, hrest, rfl⟩

theorem encodeFrom_cons {position : Nat} {t : Text} {rest : Bytes}
    (h : encodeFrom (position + 1) t = .ok rest) (c : Char) :
    encodeFrom position (.scalar c :: t) = .ok (encodeChar c ++ rest) := by
  rw [encodeFrom, h]
  rfl

theorem encodeFrom_of_isUnicode {t : Text} (h : t.isUnicode) (position : Nat) :
    encodeFrom position t = .ok (encodeLossy t) := by
  induction t generalizing position with
  | nil => rfl
  | cons c t ih =>
    rw [Text.isUnicode, List.all_cons, Bool.and_eq_true] at h
    cases c with
    | scalar c => exact encodeFrom_cons (ih h.2 (position + 1)) c
    | surrogate offset => cases h.1

theorem isUnicode_of_encodeFrom {position : Nat} {t : Text} {bytes : Bytes}
    (h : encodeFrom position t = .ok bytes) : t.isUnicode := by
  induction t generalizing position bytes with
  | nil => rfl
  | cons c t ih =>
    obtain ⟨character, rest, rfl, hrest, -⟩ := encodeFrom_cons_eq_ok h
    rw [Text.isUnicode, List.all_cons, Bool.and_eq_true]
    exact ⟨rfl, ih hrest⟩

/-- A text can be encoded exactly if it holds no surrogate. -/
theorem exists_encode_iff (t : Text) : (∃ bytes, encode t = .ok bytes) ↔ t.isUnicode :=
  ⟨fun ⟨_, h⟩ => isUnicode_of_encodeFrom h, fun h => ⟨_, encodeFrom_of_isUnicode h 0⟩⟩

theorem decodeFrom_encodeFrom {position : Nat} {t : Text} {bytes : Bytes}
    (h : encodeFrom position t = .ok bytes) (start : Nat) : decodeFrom start none bytes = .ok t := by
  induction t generalizing position bytes start with
  | nil =>
    obtain rfl := Except.ok.inj h
    rfl
  | cons c t ih =>
    cases c with
    | surrogate offset => cases h
    | scalar c =>
      rw [encodeFrom] at h
      cases hrest : encodeFrom (position + 1) t with
      | error e =>
        rw [hrest] at h
        cases h
      | ok rest =>
        rw [hrest] at h
        obtain rfl : encodeChar c ++ rest = bytes := Except.ok.inj h
        rw [decodeFrom_encodeChar, ih hrest]
        rfl

/-- Bytes that a text has been encoded as hold that text. -/
theorem decode_eq_of_encode_eq {t : Text} {bytes : Bytes} (h : encode t = .ok bytes) :
    decode bytes = .ok t :=
  decodeFrom_encodeFrom h 0

end ModuleCatalog.Utf8
