import ModuleCatalog.Json.Printer
import ModuleCatalog.Json.Reader

/-!
# Strings and integers read back

A written string, followed by any text, is read as the string that was written, and leaves that text. An
integer is read back if no digit, point or exponent follows it. The restricted alphabet joins a surrogate
with the one that follows, so for it the string must not hold any.
-/

namespace ModuleCatalog

/-! ## Hexadecimal digits -/

theorem hexadecimal_one (n : Nat) (h : n < 16) : hexadecimal 1 n = [.scalar n.digitChar] := by
  unfold hexadecimal
  rw [Nat.toDigits_of_lt_base h]
  rfl

theorem hexadecimal_succ (width n : Nat) (hwidth : 1 ≤ width) :
    hexadecimal (width + 1) n = hexadecimal width (n / 16) ++ [.scalar (n % 16).digitChar] := by
  unfold hexadecimal
  by_cases h : n < 16
  · rw [Nat.toDigits_of_lt_base h, Nat.div_eq_of_lt h, Nat.mod_eq_of_lt h, Nat.toDigits_zero]
    obtain ⟨width, rfl⟩ : ∃ k, width = k + 1 := ⟨width - 1, by omega⟩
    simp [List.replicate_succ']
  · rw [Nat.toDigits_of_base_le (by decide) (by omega)]
    simp

theorem hexValue?_digitChar : ∀ n < 16, (CodePoint.scalar n.digitChar).hexValue? = some n := by
  decide

namespace Json

theorem unit?_hexadecimal (n : Nat) (h : n < 0x10000) (rest : Text) (hrest : rest ≠ []) :
    unit? (hexadecimal 4 n ++ rest) = some (n, rest) := by
  obtain ⟨next, after, rfl⟩ := List.exists_cons_of_ne_nil hrest
  rw [hexadecimal_succ 3 n (by decide), hexadecimal_succ 2 _ (by decide),
    hexadecimal_succ 1 _ (by decide), hexadecimal_one _ (by omega)]
  simp only [List.cons_append, List.nil_append, unit?]
  rw [hexValue?_digitChar _ (by omega), hexValue?_digitChar _ (by omega),
    hexValue?_digitChar _ (by omega), hexValue?_digitChar _ (by omega)]
  simp only [Option.bind_eq_bind, Option.bind_some, Option.some.injEq, Prod.mk.injEq, and_true]
  omega

end Json

/-! ## Numbers of code points -/

namespace CodePoint

theorem ofNat_of_isValidChar {n : Nat} (h : n.isValidChar) : ofNat n = .scalar (Char.ofNat n) :=
  congrArg (fun c => Option.getD c _) (if_pos h)

theorem ofNat_of_not_isValidChar {n : Nat} (h : ¬ n.isValidChar) (hrange : 0xD800 ≤ n ∧ n < 0xE000) :
    ofNat n = .surrogate ⟨n - 0xD800, by omega⟩ :=
  congrArg (fun c => Option.getD c _) ((if_neg h).trans (dif_pos hrange))

theorem ofNat_toNat (c : CodePoint) : ofNat c.toNat = c := by
  cases c with
  | scalar c =>
    have hvalid : c.toNat.isValidChar := c.valid
    rw [toNat, ofNat_of_isValidChar hvalid, Char.ofNat_toNat]
  | surrogate offset =>
    have hbound := offset.isLt
    have hvalid : ¬ (0xD800 + offset.val).isValidChar := by
      unfold Nat.isValidChar
      omega
    rw [toNat, ofNat_of_not_isValidChar hvalid (by omega)]
    simp

theorem toNat_ofNat (n : Nat) (h : n < 0x110000) : (ofNat n).toNat = n := by
  by_cases hvalid : n.isValidChar
  · rw [ofNat_of_isValidChar hvalid, toNat, Char.ofNat, dif_pos hvalid]
    rfl
  · have hrange : 0xD800 ≤ n ∧ n < 0xE000 := by
      unfold Nat.isValidChar at hvalid
      omega
    rw [ofNat_of_not_isValidChar hvalid hrange]
    simp only [toNat]
    omega

theorem toNat_lt_of_not_surrogate {c : CodePoint} (h : c.isSurrogate = false) :
    c.toNat < 0xD800 ∨ (0xDFFF < c.toNat ∧ c.toNat < 0x110000) := by
  cases c with
  | scalar c => exact c.valid
  | surrogate => cases h

end CodePoint

namespace Json

/-! ## Escapes -/

theorem escapeUnit_append (n : Nat) (rest : Text) :
    escapeUnit n ++ rest = .scalar '\\' :: .scalar 'u' :: (hexadecimal 4 n ++ rest) := rfl

theorem length_hexadecimal_four (n : Nat) (h : n < 0x10000) : (hexadecimal 4 n).length = 4 := by
  rw [hexadecimal_succ 3 n (by decide), hexadecimal_succ 2 _ (by decide),
    hexadecimal_succ 1 _ (by decide), hexadecimal_one _ (by omega)]
  rfl

theorem unicodeEscape_hexadecimal (n : Nat) (h : n < 0x10000) (rest : Text) (hrest : rest ≠ [])
    (hhigh : (CodePoint.ofNat n).isHighSurrogate = false) :
    unicodeEscape (hexadecimal 4 n ++ rest) = .ok (.ofNat n, rest) := by
  simp only [unicodeEscape, unit?_hexadecimal n h rest hrest]
  rw [hhigh]
  rfl

/-- A first half joins with a second half that is written right behind it. -/
theorem unicodeEscape_pair (high low : Nat) (hhigh : 0xD800 ≤ high ∧ high < 0xDC00)
    (hlow : 0xDC00 ≤ low ∧ low < 0xE000) (rest : Text) (hrest : rest ≠ []) :
    unicodeEscape (hexadecimal 4 high ++ (escapeUnit low ++ rest)) =
      .ok (.ofNat (joinPair high low), rest) := by
  have hfirst : (CodePoint.ofNat high).isHighSurrogate = true := by
    simp [CodePoint.isHighSurrogate, CodePoint.toNat_ofNat high (by omega), hhigh]
  have hsecond : (CodePoint.ofNat low).isLowSurrogate = true := by
    simp [CodePoint.isLowSurrogate, CodePoint.toNat_ofNat low (by omega), hlow]
  have hlonger : ¬ (hexadecimal 4 low ++ rest).length ≤ 4 := by
    have hpositive := List.length_pos_iff.2 hrest
    rw [List.length_append, length_hexadecimal_four low (by omega)]
    omega
  have hliteral : Text.dropLiteral? "\\u" (escapeUnit low ++ rest) = some (hexadecimal 4 low ++ rest) := by
    rw [escapeUnit, List.append_assoc, Text.dropLiteral?_append]
  have hunit := unit?_hexadecimal high (by omega) (escapeUnit low ++ rest)
    (by simp [escapeUnit_append])
  simp only [unicodeEscape, hunit]
  rw [if_pos hfirst, hliteral]
  simp only [if_neg hlonger, unit?_hexadecimal low (by omega) rest hrest]
  rw [if_pos hsecond]

theorem splitPair_mem (n : Nat) (hpast : 0x10000 ≤ n) (h : n < 0x110000) :
    (0xD800 ≤ (splitPair n).1 ∧ (splitPair n).1 < 0xDC00) ∧
      (0xDC00 ≤ (splitPair n).2 ∧ (splitPair n).2 < 0xE000) := by
  unfold splitPair
  omega

theorem joinPair_splitPair (n : Nat) (hpast : 0x10000 ≤ n) :
    joinPair (splitPair n).1 (splitPair n).2 = n := by
  unfold joinPair splitPair
  omega

/-! ## Strings -/

/-- Whether a string written in an alphabet is read back: the restricted one takes two surrogates for a
pair. -/
def IsReadable (alphabet : Alphabet) (t : Text) : Prop := alphabet = .ascii → t.isUnicode

theorem readCharacters_escape (opened fuel : Nat) (c : CodePoint) (t rest : Text)
    (h : unicodeEscape t = .ok (c, rest)) :
    readCharacters opened (fuel + 1) (.scalar '\\' :: .scalar 'u' :: t) =
      (readCharacters opened fuel rest).map fun (s, after) => (c :: s, after) := by
  rw [readCharacters, if_neg (by decide), if_pos rfl]
  simp only [if_true, h, bind, Except.bind]
  cases readCharacters opened fuel rest <;> rfl

theorem readCharacters_simple (opened fuel : Nat) (c letter : CodePoint) (rest : Text)
    (hletter : letter ≠ .scalar 'u') (h : simpleEscape? letter = some c) :
    readCharacters opened (fuel + 1) (.scalar '\\' :: letter :: rest) =
      (readCharacters opened fuel rest).map fun (s, after) => (c :: s, after) := by
  rw [readCharacters, if_neg (by decide), if_pos rfl]
  simp only [if_neg hletter, h]
  cases readCharacters opened fuel rest <;> rfl

theorem readCharacters_plain (opened fuel : Nat) (c : CodePoint) (rest : Text)
    (hquote : c ≠ .scalar '"') (hbackslash : c ≠ .scalar '\\') (h : 0x20 ≤ c.toNat) :
    readCharacters opened (fuel + 1) (c :: rest) =
      (readCharacters opened fuel rest).map fun (s, after) => (c :: s, after) := by
  conv =>
    lhs
    unfold readCharacters
  simp only [if_neg hquote, if_neg hbackslash, if_neg (Nat.not_lt.2 h)]
  cases readCharacters opened fuel rest <;> rfl

theorem readCharacters_escapeNumber (opened fuel : Nat) (c : CodePoint) (rest : Text)
    (hc : c.isSurrogate = false) (hrest : rest ≠ []) :
    readCharacters opened (fuel + 1) (escapeNumber c.toNat ++ rest) =
      (readCharacters opened fuel rest).map fun (s, after) => (c :: s, after) := by
  have hrange := CodePoint.toNat_lt_of_not_surrogate hc
  unfold escapeNumber
  split
  · next hshort =>
    have hhigh : (CodePoint.ofNat c.toNat).isHighSurrogate = false := by
      rw [CodePoint.ofNat_toNat]
      simp only [CodePoint.isHighSurrogate, Bool.and_eq_false_iff, decide_eq_false_iff_not]
      omega
    rw [escapeUnit_append]
    apply readCharacters_escape
    rw [unicodeEscape_hexadecimal _ hshort rest hrest hhigh, CodePoint.ofNat_toNat]
  · next hlong =>
    obtain ⟨hfirst, hsecond⟩ := splitPair_mem c.toNat (by omega) (by omega)
    rw [List.append_assoc, escapeUnit_append]
    apply readCharacters_escape
    rw [unicodeEscape_pair _ _ hfirst hsecond rest hrest, joinPair_splitPair _ (by omega),
      CodePoint.ofNat_toNat]

theorem readCharacters_writeChar (alphabet : Alphabet) (opened fuel : Nat) (c : CodePoint)
    (rest : Text) (hc : alphabet = .ascii → c.isSurrogate = false) (hrest : rest ≠ []) :
    readCharacters opened (fuel + 1) (writeChar alphabet c ++ rest) =
      (readCharacters opened fuel rest).map fun (s, after) => (c :: s, after) := by
  unfold writeChar
  split
  · exact readCharacters_simple _ _ _ _ _ (by decide) rfl
  · exact readCharacters_simple _ _ _ _ _ (by decide) rfl
  · exact readCharacters_simple _ _ _ _ _ (by decide) rfl
  · exact readCharacters_simple _ _ _ _ _ (by decide) rfl
  · exact readCharacters_simple _ _ _ _ _ (by decide) rfl
  · exact readCharacters_simple _ _ _ _ _ (by decide) rfl
  · exact readCharacters_simple _ _ _ _ _ (by decide) rfl
  · next hquote hbackslash _ _ _ _ _ =>
    split
    · next hescaped =>
      apply readCharacters_escapeNumber opened fuel c rest _ hrest
      rcases hescaped with hcontrol | ⟨hascii, -⟩
      · cases c with
        | scalar => rfl
        | surrogate offset =>
          simp only [CodePoint.toNat] at hcontrol
          omega
      · exact hc hascii
    · next hplain =>
      exact readCharacters_plain opened fuel c rest hquote hbackslash (by omega)

theorem readCharacters_flatMap_writeChar (alphabet : Alphabet) (t rest : Text) (opened fuel : Nat)
    (ht : IsReadable alphabet t) (hfuel : t.length < fuel) :
    readCharacters opened fuel (t.flatMap (writeChar alphabet) ++ .scalar '"' :: rest) =
      .ok (t, rest) := by
  induction t generalizing fuel with
  | nil =>
    obtain ⟨fuel, rfl⟩ : ∃ k, fuel = k + 1 := ⟨fuel - 1, by simp at hfuel; omega⟩
    simp [readCharacters]
  | cons c t ih =>
    obtain ⟨fuel, rfl⟩ : ∃ k, fuel = k + 1 := ⟨fuel - 1, by simp at hfuel; omega⟩
    have hreadable (hascii : alphabet = .ascii) : c.isSurrogate = false ∧ Text.isUnicode t := by
      simpa [Text.isUnicode] using ht hascii
    rw [List.flatMap_cons, List.append_assoc, readCharacters_writeChar alphabet opened fuel c _
      (fun hascii => (hreadable hascii).1) (by simp)]
    rw [ih fuel (fun hascii => (hreadable hascii).2) (by simp at hfuel; omega)]
    rfl

theorem escapeUnit_ne_nil (n : Nat) : escapeUnit n ≠ [] := List.cons_ne_nil _ _

theorem escapeNumber_ne_nil (n : Nat) : escapeNumber n ≠ [] := by
  unfold escapeNumber
  split
  · exact escapeUnit_ne_nil n
  · exact List.append_ne_nil_of_left_ne_nil (escapeUnit_ne_nil _) _

theorem writeChar_ne_nil (alphabet : Alphabet) (c : CodePoint) : writeChar alphabet c ≠ [] := by
  unfold writeChar
  split
  case h_8 =>
    split
    · exact escapeNumber_ne_nil _
    · exact List.cons_ne_nil _ _
  all_goals decide

theorem length_le_length_flatMap_writeChar (alphabet : Alphabet) (t : Text) :
    t.length ≤ (t.flatMap (writeChar alphabet)).length := by
  induction t with
  | nil => simp
  | cons c t ih =>
    have hpositive := List.length_pos_iff.2 (writeChar_ne_nil alphabet c)
    rw [List.flatMap_cons, List.length_append, List.length_cons]
    omega

/-- A written string without its opening mark is read back. -/
theorem readString_writeString (alphabet : Alphabet) (t rest : Text) (ht : IsReadable alphabet t) :
    readString (t.flatMap (writeChar alphabet) ++ .scalar '"' :: rest) = .ok (t, rest) := by
  unfold readString
  apply readCharacters_flatMap_writeChar alphabet t rest _ _ ht
  have hlength := length_le_length_flatMap_writeChar alphabet t
  rw [List.length_append, List.length_cons]
  omega

theorem writeString_append (alphabet : Alphabet) (t rest : Text) :
    writeString alphabet t ++ rest =
      .scalar '"' :: (t.flatMap (writeChar alphabet) ++ .scalar '"' :: rest) := by
  simp [writeString]

end Json

/-! ## Digits -/

namespace Decimal

theorem digitsBefore_eq_append (fuel n : Nat) (rest : Text) :
    digitsBefore fuel n rest = digitsBefore fuel n [] ++ rest := by
  induction fuel generalizing n rest with
  | zero => rfl
  | succ fuel ih =>
    unfold digitsBefore
    split
    · rfl
    · rw [ih, ih (n / 10) [digit (n % 10)], List.append_assoc]
      rfl

theorem digitsBefore_succ (fuel n : Nat) (h : 10 ≤ n) :
    digitsBefore (fuel + 1) n [] = digitsBefore fuel (n / 10) [] ++ [digit (n % 10)] := by
  rw [digitsBefore, if_neg (by omega), digitsBefore_eq_append]

theorem isAsciiDigit_digit : ∀ d < 10, (digit d).isAsciiDigit = true := by
  decide

theorem toNat_digit : ∀ d < 10, (digit d).toNat - 0x30 = d := by
  decide

theorem isAsciiDigit_of_mem_digitsBefore (fuel n : Nat) (c : CodePoint)
    (h : c ∈ digitsBefore fuel n []) : c.isAsciiDigit := by
  induction fuel generalizing n with
  | zero => cases h
  | succ fuel ih =>
    by_cases hn : n < 10
    · rw [digitsBefore, if_pos hn, List.mem_singleton] at h
      rw [h]
      exact isAsciiDigit_digit n hn
    · rw [digitsBefore_succ fuel n (by omega), List.mem_append, List.mem_singleton] at h
      rcases h with h | rfl
      · exact ih (n / 10) h
      · exact isAsciiDigit_digit _ (by omega)

theorem toNat_digitsBefore (fuel n : Nat) (h : n < fuel) : toNat (digitsBefore fuel n []) = n := by
  induction fuel generalizing n with
  | zero => omega
  | succ fuel ih =>
    by_cases hn : n < 10
    · rw [digitsBefore, if_pos hn]
      simpa [toNat] using toNat_digit n hn
    · have hfront := ih (n / 10) (by omega)
      have hlast := toNat_digit (n % 10) (by omega)
      rw [digitsBefore_succ fuel n (by omega)]
      unfold toNat at hfront ⊢
      rw [List.foldl_append, hfront, List.foldl_cons, List.foldl_nil, hlast]
      omega

/-- Only zero begins with a zero. -/
theorem head?_digitsBefore (fuel n : Nat) (h : n < fuel) (hn : 0 < n) :
    ∃ c, (digitsBefore fuel n []).head? = some c ∧ c ≠ .scalar '0' := by
  induction fuel generalizing n with
  | zero => omega
  | succ fuel ih =>
    by_cases hsmall : n < 10
    · refine ⟨digit n, by rw [digitsBefore, if_pos hsmall]; rfl, ?_⟩
      have hdigits : ∀ d < 10, 0 < d → digit d ≠ .scalar '0' := by decide
      exact hdigits n hsmall hn
    · obtain ⟨c, hc, hzero⟩ := ih (n / 10) (by omega) (by omega)
      refine ⟨c, ?_, hzero⟩
      rw [digitsBefore_succ fuel n (by omega), List.head?_append, hc]
      rfl

theorem toNat_ofNat (n : Nat) : toNat (ofNat n) = n := toNat_digitsBefore (n + 1) n (by omega)

theorem isAsciiDigit_of_mem_ofNat {n : Nat} {c : CodePoint} (h : c ∈ ofNat n) : c.isAsciiDigit :=
  isAsciiDigit_of_mem_digitsBefore (n + 1) n c h

end Decimal

namespace Json

/-! ## Integers -/

/-- Whether a number in front of a text ends there. -/
def EndsNumber (rest : Text) : Prop :=
  ∀ c ∈ rest.head?, c.isAsciiDigit = false ∧ c ≠ .scalar '.' ∧ c ≠ .scalar 'e' ∧ c ≠ .scalar 'E'

theorem spanDigits_append (digits rest : Text) (hdigits : ∀ c ∈ digits, c.isAsciiDigit)
    (hrest : EndsNumber rest) : spanDigits (digits ++ rest) = (digits, rest) := by
  have hdrop : rest.takeWhile CodePoint.isAsciiDigit = [] ∧
      rest.dropWhile CodePoint.isAsciiDigit = rest := by
    cases rest with
    | nil => exact ⟨rfl, rfl⟩
    | cons c rest =>
      have hc := (hrest c rfl).1
      simp [hc]
  unfold spanDigits
  rw [List.takeWhile_append_of_pos hdigits, List.dropWhile_append_of_pos hdigits, hdrop.1, hdrop.2,
    List.append_nil]

theorem wholeDigits?_ofNat (n : Nat) (rest : Text) (hrest : EndsNumber rest) :
    wholeDigits? (Decimal.ofNat n ++ rest) = some (Decimal.ofNat n, rest) := by
  rcases Nat.eq_zero_or_pos n with rfl | hn
  · rfl
  · obtain ⟨c, hc, hzero⟩ := Decimal.head?_digitsBefore (n + 1) n (by omega) hn
    obtain ⟨digits, hdigits⟩ : ∃ digits, Decimal.ofNat n = c :: digits :=
      List.head?_eq_some_iff.1 hc
    have hspan := spanDigits_append (Decimal.ofNat n) rest
      (fun _ h => Decimal.isAsciiDigit_of_mem_ofNat h) hrest
    rw [hdigits] at hspan ⊢
    unfold wholeDigits?
    split
    · next heq =>
      simp only [List.cons_append, List.cons.injEq] at heq
      exact absurd heq.1 hzero
    · rw [hspan]

theorem fractionDigits_of_endsNumber {rest : Text} (hrest : EndsNumber rest) :
    fractionDigits rest = ([], rest) := by
  unfold fractionDigits
  split
  · next after => exact absurd rfl (hrest _ rfl).2.1
  · rfl

theorem exponent?_of_endsNumber {rest : Text} (hrest : EndsNumber rest) : exponent? rest = none := by
  cases rest with
  | nil => rfl
  | cons c rest =>
    obtain ⟨-, -, hlower, hupper⟩ := hrest c rfl
    exact if_neg (not_or.2 ⟨hlower, hupper⟩)

theorem readMagnitude?_ofNat (negative : Bool) (n : Nat) (rest : Text) (hrest : EndsNumber rest) :
    readMagnitude? negative (Decimal.ofNat n ++ rest) =
      some (.integer (if negative then -(n : Int) else n), rest) := by
  simp only [readMagnitude?, wholeDigits?_ofNat n rest hrest, fractionDigits_of_endsNumber hrest,
    exponent?_of_endsNumber hrest, Decimal.toNat_ofNat, Option.bind_eq_bind, Option.bind_some]

theorem ne_of_isAsciiDigit {c : CodePoint} (hc : c.isAsciiDigit) (other : CodePoint)
    (h : other.isAsciiDigit = false) : c ≠ other := by
  rintro rfl
  rw [h] at hc
  cases hc

/-- A text that begins with a digit is none of the names. -/
theorem readPlain?_digit {c : CodePoint} (hc : c.isAsciiDigit) (t : Text) :
    readPlain? (c :: t) = readMagnitude? false (c :: t) := by
  have hnull := ne_of_isAsciiDigit hc (.scalar 'n') rfl
  have htrue := ne_of_isAsciiDigit hc (.scalar 't') rfl
  have hfalse := ne_of_isAsciiDigit hc (.scalar 'f') rfl
  have hnan := ne_of_isAsciiDigit hc (.scalar 'N') rfl
  have hinfinity := ne_of_isAsciiDigit hc (.scalar 'I') rfl
  have hminus := ne_of_isAsciiDigit hc (.scalar '-') rfl
  simp [readPlain?, Text.dropLiteral?, Text.ofString, hnull.symm, htrue.symm, hfalse.symm, hnan.symm,
    hinfinity.symm, hminus.symm, hminus]

theorem readPlain?_minus {c : CodePoint} (hc : c.isAsciiDigit) (t : Text) :
    readPlain? (.scalar '-' :: c :: t) = readMagnitude? true (c :: t) := by
  have hinfinity := ne_of_isAsciiDigit hc (.scalar 'I') rfl
  simp [readPlain?, Text.dropLiteral?, Text.ofString, hinfinity.symm]

theorem exists_ofNat_eq_cons (n : Nat) :
    ∃ c digits, Decimal.ofNat n = c :: digits ∧ c.isAsciiDigit := by
  cases h : Decimal.ofNat n with
  | nil =>
    rcases Nat.eq_zero_or_pos n with rfl | hn
    · cases h
    · obtain ⟨c, hc, -⟩ := Decimal.head?_digitsBefore (n + 1) n (by omega) hn
      have hhead : (Decimal.ofNat n).head? = some c := hc
      rw [h] at hhead
      cases hhead
  | cons c digits => exact ⟨c, digits, rfl, Decimal.isAsciiDigit_of_mem_ofNat (h ▸ List.mem_cons_self)⟩

theorem readPlain?_ofInt (i : Int) (rest : Text) (hrest : EndsNumber rest) :
    readPlain? (Decimal.ofInt i ++ rest) = some (.integer i, rest) := by
  cases i with
  | ofNat n =>
    obtain ⟨c, digits, hdigits, hc⟩ := exists_ofNat_eq_cons n
    have hread := readMagnitude?_ofNat false n rest hrest
    rw [Decimal.ofInt]
    rw [hdigits] at hread ⊢
    rw [List.cons_append] at hread ⊢
    rw [readPlain?_digit hc, hread]
    rfl
  | negSucc n =>
    obtain ⟨c, digits, hdigits, hc⟩ := exists_ofNat_eq_cons (n + 1)
    have hread := readMagnitude?_ofNat true (n + 1) rest hrest
    rw [Decimal.ofInt]
    rw [hdigits] at hread ⊢
    rw [List.cons_append] at hread
    rw [List.cons_append, List.cons_append, readPlain?_minus hc, hread]
    rfl

end Json

end ModuleCatalog
