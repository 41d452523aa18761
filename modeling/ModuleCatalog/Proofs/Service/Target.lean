import ModuleCatalog.Proofs.Text.Pieces
import ModuleCatalog.Proofs.Text.Unicode
import ModuleCatalog.Proofs.Text.Utf8
import ModuleCatalog.Service.Target

/-!
# Targets that are read back

A byte is read back from its escape, and neighbouring escapes are decoded together. So a text whose characters are
partly escaped is read back, whichever they are, if percent signs are among them. A target whose path is written so
is received with that path.
-/

namespace ModuleCatalog

/-- Whether neither an escape nor a query begins in a text. -/
def Text.IsUnmarked (t : Text) : Prop := CodePoint.scalar '%' ∉ t ∧ CodePoint.scalar '?' ∉ t

namespace Service

/-! ## Bytes -/

theorem decodeLossy_encodeLossy {t : Text} (h : t.isUnicode) : Utf8.decodeLossy (Utf8.encodeLossy t) = t := by
  have hdecode : Utf8.decode (Utf8.encodeLossy t) = .ok t :=
    Utf8.decode_eq_of_encode_eq (Utf8.encodeFrom_of_isUnicode h 0)
  rw [Utf8.decodeLossy, Utf8.decodeReplacing, Utf8.decodeReplacing.go, hdecode]

theorem hexValue?_upperHexDigit : ∀ n < 16, (escapeByte.upperHexDigit n).hexValue? = some n := by decide

/-! ## Pieces -/

theorem pieces_cons {c : CodePoint} (hc : c ≠ .scalar '%') (t : Text) : pieces (c :: t) = .plain c :: pieces t := by
  rw [pieces]
  rintro a b rest rfl
  exact absurd rfl hc

theorem pieces_escapeByte (byte : UInt8) (t : Text) : pieces (escapeByte byte ++ t) = .escaped byte :: pieces t := by
  have hbyte : byte.toNat < 256 := byte.toNat_lt
  have hhigh := hexValue?_upperHexDigit (byte.toNat / 16) (by omega)
  have hlow := hexValue?_upperHexDigit (byte.toNat % 16) (by omega)
  have hvalue : byte.toNat / 16 * 16 + byte.toNat % 16 = byte.toNat := by omega
  simp only [escapeByte, List.cons_append, List.nil_append, pieces, hhigh, hlow, hvalue, UInt8.ofNat_toNat]

theorem pieces_escapeBytes (bytes : Bytes) (t : Text) :
    pieces (bytes.flatMap escapeByte ++ t) = bytes.map Piece.escaped ++ pieces t := by
  induction bytes with
  | nil => rfl
  | cons byte bytes ih =>
    rw [List.flatMap_cons, List.append_assoc, pieces_escapeByte, ih]
    rfl

theorem joinPieces_escaped (pending bytes : Bytes) (rest : List Piece) :
    joinPieces pending (bytes.map Piece.escaped ++ rest) = joinPieces (bytes.reverse ++ pending) rest := by
  induction bytes generalizing pending with
  | nil => rfl
  | cons byte bytes ih =>
    rw [List.map_cons, List.cons_append, joinPieces, ih, List.reverse_cons, List.append_assoc]
    rfl

/-! ## Texts -/

/-- An escaped text is read back behind the escapes of another one. -/
theorem joinPieces_percentEncode {others : Text} (hothers : CodePoint.scalar '%' ∉ others) (before : Text) {t : Text}
    (hbefore : before.isUnicode) (ht : t.isUnicode) :
    joinPieces (Utf8.encodeLossy before).reverse (pieces (percentEncode others t)) = before ++ t := by
  induction t generalizing before with
  | nil =>
    rw [percentEncode, List.flatMap_nil, pieces, joinPieces, List.reverse_reverse, decodeLossy_encodeLossy hbefore,
      List.append_nil]
  | cons c t ih =>
    rw [Text.isUnicode, List.all_cons, Bool.and_eq_true] at ht
    obtain ⟨hc, ht⟩ := ht
    rw [percentEncode, List.flatMap_cons, ← percentEncode]
    split
    · next hkept =>
      have hne : c ≠ .scalar '%' := by
        rintro rfl
        have hmem : CodePoint.scalar '%' ∈ others := by simpa [isUnreserved] using hkept
        exact hothers hmem
      rw [List.singleton_append, pieces_cons hne, joinPieces, List.reverse_reverse, decodeLossy_encodeLossy hbefore]
      have hrest : joinPieces [] (pieces (percentEncode others t)) = t := ih [] rfl ht
      rw [hrest]
    · have hlonger : Text.isUnicode (before ++ [c]) :=
        Text.isUnicode_append_iff.2 ⟨hbefore, Text.isUnicode_iff.2 (by simpa using hc)⟩
      have hbytes : (Utf8.encodeLossy [c]).reverse ++ (Utf8.encodeLossy before).reverse =
          (Utf8.encodeLossy (before ++ [c])).reverse := by
        rw [← List.reverse_append, Utf8.encodeLossy, Utf8.encodeLossy, Utf8.encodeLossy, List.flatMap_append]
      rw [pieces_escapeBytes, joinPieces_escaped, hbytes, ih _ hlonger ht, List.append_assoc]
      rfl

theorem percentDecode_append {s : Text} (hs : CodePoint.scalar '%' ∉ s) (t : Text) :
    percentDecode (s ++ t) = s ++ percentDecode t := by
  induction s with
  | nil => rfl
  | cons c s ih =>
    rw [List.mem_cons, not_or] at hs
    have hempty : Utf8.decodeLossy [] = [] := rfl
    rw [List.cons_append, percentDecode, pieces_cons (Ne.symm hs.1), joinPieces, List.reverse_nil, hempty,
      List.nil_append, ← percentDecode, ih hs.2, List.cons_append]

/-- An escaped text is read back. -/
theorem percentDecode_percentEncode {others t : Text} (hothers : CodePoint.scalar '%' ∉ others) (ht : t.isUnicode) :
    percentDecode (percentEncode others t) = t :=
  joinPieces_percentEncode hothers [] rfl ht

/-! ## Targets -/

theorem cut_of_not_mem {separator : CodePoint} {t : Text} (h : separator ∉ t) : cut separator t = (t, none) := by
  rw [cut, Text.splitFirst?_eq_none_iff.2 h]

theorem upperHexDigit_ne : ∀ n < 16, escapeByte.upperHexDigit n ≠ .scalar '?' := by decide

theorem not_mem_percentEncode {others : Text} (hothers : CodePoint.scalar '?' ∉ others) (t : Text) :
    CodePoint.scalar '?' ∉ percentEncode others t := by
  intro hmem
  obtain ⟨c, -, hmem⟩ := List.mem_flatMap.1 hmem
  split at hmem
  · next hkept =>
    obtain rfl := List.mem_singleton.1 hmem
    have hmem : CodePoint.scalar '?' ∈ others := by simpa [isUnreserved] using hkept
    exact hothers hmem
  · obtain ⟨byte, -, hbyte⟩ := List.mem_flatMap.1 hmem
    have hlt : byte.toNat < 256 := byte.toNat_lt
    simp only [escapeByte, List.mem_cons, List.not_mem_nil, or_false] at hbyte
    rcases hbyte with hpercent | hhigh | hlow
    · exact absurd hpercent (by decide)
    · exact upperHexDigit_ne _ (by omega) hhigh.symm
    · exact upperHexDigit_ne _ (by omega) hlow.symm

/-- A path whose end is escaped is received as it was. -/
theorem received_percentEncode {start others t : Text} (hstart : start.IsUnmarked) (hothers : others.IsUnmarked)
    (ht : t.isUnicode) : Target.received (start ++ percentEncode others t) = ⟨start ++ t, none⟩ := by
  have hquery : CodePoint.scalar '?' ∉ start ++ percentEncode others t := by
    rw [List.mem_append, not_or]
    exact ⟨hstart.2, not_mem_percentEncode hothers.2 t⟩
  rw [Target.received, cut_of_not_mem hquery]
  dsimp only
  rw [percentDecode_append hstart.1, percentDecode_percentEncode hothers.1 ht]

end Service

end ModuleCatalog
