import Mathlib.Algebra.Order.Floor.Div
import ModuleCatalog.Proofs.Artifact.Characters
import ModuleCatalog.Proofs.Text.Pieces

/-!
# The lines of an artifact

Every chunk of an artifact stands on a line of its own. The payload is written without controls, because its strings
escape them, so a chunk is written with a backslash in front of each quotation mark and each backslash, and with no
other escapes. Therefore no line of a chunk is longer than twice the chunk and what stands around it.
-/

namespace ModuleCatalog.Artifact

/-! ## Chunks -/

/-- Whether a text is cut into pieces of a size, the last of which may be shorter but is not empty. -/
structure IsCut (size : Nat) (t : Text) (pieces : List Text) : Prop where
  joined : pieces.flatten = t
  full : ∀ piece ∈ pieces.dropLast, piece.length = size
  last : ∀ piece, pieces.getLast? = some piece → 1 ≤ piece.length ∧ piece.length ≤ size

namespace IsCut

variable {size : Nat} {t : Text} {pieces : List Text}

theorem nil (size : Nat) : IsCut size [] [] := ⟨rfl, List.forall_mem_nil _, nofun⟩

theorem singleton (hne : t ≠ []) (hle : t.length ≤ size) : IsCut size t [t] where
  joined := List.flatten_singleton
  full := List.forall_mem_nil _
  last piece h := by
    obtain rfl := Option.some.inj h
    exact ⟨List.length_pos_of_ne_nil hne, hle⟩

/-- One more piece of the full size goes in front of the pieces of a text that is not empty. -/
theorem cons {piece : Text} (hpiece : piece.length = size) (hne : t ≠ []) (h : IsCut size t pieces) :
    IsCut size (piece ++ t) (piece :: pieces) := by
  have hpieces : pieces ≠ [] := by
    rintro rfl
    exact hne h.joined.symm
  refine ⟨by rw [List.flatten_cons, h.joined], ?_, ?_⟩
  · rw [List.dropLast_cons_of_ne_nil hpieces]
    exact List.forall_mem_cons.2 ⟨hpiece, h.full⟩
  · intro last hlast
    rw [List.getLast?_cons_of_ne_nil hpieces] at hlast
    exact h.last last hlast

theorem length_le (h : IsCut size t pieces) : ∀ piece ∈ pieces, piece.length ≤ size := by
  intro piece hpiece
  rcases List.eq_nil_or_concat pieces with rfl | ⟨front, last, rfl⟩
  · cases hpiece
  · rw [List.concat_eq_append] at h hpiece
    rcases List.mem_append.1 hpiece with hfront | hlast
    · exact (h.full piece (by rwa [List.dropLast_concat])).le
    · obtain rfl := List.mem_singleton.1 hlast
      exact (h.last piece List.getLast?_concat).2

/-- There are as many pieces as the length of the text divided by their size, rounded up. -/
theorem length_eq (hsize : 0 < size) (h : IsCut size t pieces) : pieces.length = t.length ⌈/⌉ size := by
  rcases List.eq_nil_or_concat pieces with rfl | ⟨front, last, rfl⟩
  · rw [← h.joined]
    simp
  · rw [List.concat_eq_append] at h ⊢
    obtain ⟨hpos, hle⟩ := h.last last List.getLast?_concat
    have hfull : ∀ piece ∈ front, piece.length = size := by
      intro piece hpiece
      exact h.full piece (by rwa [List.dropLast_concat])
    have hsum : (front.map List.length).sum = front.length * size := by
      rw [List.map_eq_replicate_iff.2 hfull, List.sum_replicate, smul_eq_mul]
    have ht : t.length = front.length * size + last.length := by
      rw [← h.joined, List.flatten_append, List.flatten_singleton, List.length_append, List.length_flatten, hsum]
    have hround : (front.length * size + last.length + size - 1) / size = front.length + 1 := by
      rw [show front.length * size + last.length + size - 1 = last.length - 1 + size * (front.length + 1) by
        rw [Nat.mul_add, Nat.mul_comm size front.length]
        omega, Nat.add_mul_div_left _ _ hsize, Nat.div_eq_of_lt (by omega), Nat.zero_add]
    rw [Nat.ceilDiv_eq_add_pred_div, ht, hround, List.length_append, List.length_singleton]

end IsCut

theorem isCut_piecesOf {size : Nat} (hsize : 0 < size) (fuel : Nat) (t : Text) (hfuel : t.length ≤ fuel) :
    IsCut size t (piecesOf size fuel t) := by
  induction fuel generalizing t with
  | zero =>
    obtain rfl := List.length_eq_zero_iff.1 (Nat.le_zero.1 hfuel)
    exact .nil size
  | succ fuel ih =>
    by_cases hne : t = []
    · subst hne
      exact .nil size
    · have hstep : piecesOf size (fuel + 1) t = t.take size :: piecesOf size fuel (t.drop size) :=
        if_neg (mt List.isEmpty_iff.1 hne)
      have hrest := ih (t.drop size) (by rw [List.length_drop]; have := List.length_pos_of_ne_nil hne; omega)
      rw [hstep]
      by_cases hle : t.length ≤ size
      · rw [List.take_of_length_le hle, List.drop_of_length_le hle]
        rw [show piecesOf size fuel [] = [] by cases fuel <;> rfl]
        exact .singleton hne hle
      · have hlength : (t.take size).length = size := List.length_take_of_le (by omega)
        have hdrop : t.drop size ≠ [] := by
          rw [ne_eq, List.drop_eq_nil_iff]
          exact hle
        have hcut := hrest.cons hlength hdrop
        rwa [List.take_append_drop] at hcut

/-- The chunks of a text are its pieces of their size. -/
theorem isCut_chunksOf {size : Nat} (hsize : 0 < size) (t : Text) : IsCut size t (chunksOf size t) :=
  isCut_piecesOf hsize t.length t (Nat.le_refl _)

/-! ## Lines -/

/-- The text of some lines: a line feed ends each of them. -/
def linesText (lines : List Text) : Text := lines.flatMap fun line => line ++ "\n"

theorem linesText_cons (line : Text) (lines : List Text) :
    linesText (line :: lines) = line ++ .scalar '\n' :: linesText lines := by
  rw [linesText, List.flatMap_cons, List.append_assoc]
  rfl

theorem linesText_append (lines more : List Text) : linesText (lines ++ more) = linesText lines ++ linesText more :=
  List.flatMap_append

/-- Lines without line feeds are the pieces between the line feeds of their text. -/
theorem splitOn_linesText {lines : List Text} (h : ∀ line ∈ lines, .scalar '\n' ∉ line) :
    Text.splitOn (.scalar '\n') (linesText lines) = lines ++ [[]] := by
  induction lines with
  | nil => rfl
  | cons line lines ih =>
    obtain ⟨hline, hlines⟩ := List.forall_mem_cons.1 h
    rw [linesText_cons, Text.splitOn_append_cons, Text.splitOn_of_not_mem hline, ih hlines]
    rfl

/-- A comma ends every line but the last one. -/
def withCommas : List Text → List Text
  | [] => []
  | [line] => [line]
  | line :: next :: lines => (line ++ [.scalar ',']) :: withCommas (next :: lines)

theorem length_withCommas (lines : List Text) : (withCommas lines).length = lines.length := by
  fun_induction withCommas lines with
  | case1 => rfl
  | case2 => rfl
  | case3 line next lines ih => simp only [List.length_cons, ih]

/-- A line is one of those given, perhaps with a comma behind it. -/
theorem exists_of_mem_withCommas {lines : List Text} {line : Text} (h : line ∈ withCommas lines) :
    ∃ written ∈ lines, line = written ∨ line = written ++ [.scalar ','] := by
  fun_induction withCommas lines with
  | case1 => cases h
  | case2 written => exact ⟨written, List.mem_singleton_self _, .inl (List.mem_singleton.1 h)⟩
  | case3 written next lines ih =>
    rcases List.mem_cons.1 h with rfl | h
    · exact ⟨written, List.mem_cons_self, .inr rfl⟩
    · obtain ⟨other, hother, heq⟩ := ih h
      exact ⟨other, List.mem_cons_of_mem _ hother, heq⟩

/-- Items between line breaks of a level stand on lines of their own. -/
theorem lineBreaks_eq_linesText (indent : Text) (item : Text) (items : List Text) :
    indent ++ Text.joinWith (.scalar ',' :: .scalar '\n' :: indent) (item :: items) ++ [.scalar '\n'] =
      linesText (withCommas ((item :: items).map fun item => indent ++ item)) := by
  induction items generalizing item with
  | nil => exact (linesText_cons (indent ++ item) []).symm
  | cons next items ih =>
    calc indent ++ Text.joinWith (.scalar ',' :: .scalar '\n' :: indent) (item :: next :: items) ++ [.scalar '\n']
        = (indent ++ item ++ [.scalar ',']) ++ .scalar '\n' ::
            (indent ++ Text.joinWith (.scalar ',' :: .scalar '\n' :: indent) (next :: items) ++ [.scalar '\n']) := by
          simp only [Text.joinWith, List.append_assoc, List.cons_append, List.nil_append]
      _ = (indent ++ item ++ [.scalar ',']) ++ .scalar '\n' ::
            linesText (withCommas ((next :: items).map fun item => indent ++ item)) := by rw [ih]
      _ = linesText (withCommas ((item :: next :: items).map fun item => indent ++ item)) :=
          (linesText_cons _ _).symm

/-! ## Chunks on lines -/

/-- A character of a chunk within a line: a backslash stands in front of a quotation mark and of a backslash. -/
def slashed (c : CodePoint) : Text := if c = .scalar '"' ∨ c = .scalar '\\' then [.scalar '\\', c] else [c]

/-- The line of a chunk, but for the comma behind it. -/
def chunkLine (chunk : Text) : Text := "    \"" ++ chunk.flatMap slashed ++ "\""

/-- The lines of all chunks. -/
def chunkLines (chunks : List Text) : List Text := withCommas (chunks.map chunkLine)

def openingLines : List Text :=
  ["\x7b", "  \"generator\": \"modmanifest\",", "  \"version\": 1,", "  \"chunks\": ["]

def closingLines : List Text := ["  ]", "\x7d"]

/-- The lines of an artifact with some chunks. -/
def documentLines (chunks : List Text) : List Text := openingLines ++ chunkLines chunks ++ closingLines

theorem length_documentLines (chunks : List Text) : (documentLines chunks).length = chunks.length + 6 := by
  rw [documentLines, List.length_append, List.length_append, chunkLines, length_withCommas, List.length_map]
  simp only [openingLines, closingLines, List.length_cons, List.length_nil]
  omega

/-- A character that is no control needs no other escape than a backslash in front of it. -/
theorem writeChar_eq_slashed {c : CodePoint} (h : 0x20 ≤ c.toNat) : Json.writeChar .unicode c = slashed c := by
  unfold Json.writeChar
  split
  case h_1 => rfl
  case h_2 => rfl
  case h_8 hquote hslash _ _ _ _ _ =>
    have hkept : ¬ (c.toNat < 0x20 ∨ Json.Alphabet.unicode = .ascii ∧ 0x7F ≤ c.toNat) := by
      rintro (hlow | ⟨hascii, -⟩)
      · omega
      · cases hascii
    rw [if_neg hkept, slashed, if_neg (not_or.2 ⟨hquote, hslash⟩)]
  all_goals exact absurd h (by decide)

theorem length_slashed_le (c : CodePoint) : (slashed c).length ≤ 2 := by
  unfold slashed
  split <;> simp

theorem le_toNat_of_mem_slashed {c d : CodePoint} (hc : 0x20 ≤ c.toNat) (hd : d ∈ slashed c) : 0x20 ≤ d.toNat := by
  unfold slashed at hd
  split at hd
  · rcases List.mem_pair.1 hd with rfl | rfl
    · decide
    · exact hc
  · rwa [List.mem_singleton.1 hd]

theorem length_chunkLine_le (chunk : Text) : (chunkLine chunk).length ≤ 2 * chunk.length + 6 := by
  have hslashed : (chunk.flatMap slashed).length ≤ chunk.length * 2 := by
    rw [List.length_flatMap]
    refine (List.sum_le_card_nsmul _ 2 ?_).trans_eq ?_
    · simp [length_slashed_le]
    · rw [List.length_map, smul_eq_mul]
  have hends : (Text.ofString "    \"").length = 5 ∧ (Text.ofString "\"").length = 1 := by decide
  rw [chunkLine, List.length_append, List.length_append, hends.1, hends.2]
  omega

theorem le_toNat_of_mem_chunkLine {chunk : Text} (h : ∀ c ∈ chunk, 0x20 ≤ c.toNat) :
    ∀ c ∈ chunkLine chunk, 0x20 ≤ c.toNat := by
  simp only [chunkLine, List.forall_mem_append, List.forall_mem_flatMap]
  exact ⟨⟨by decide, fun c hc d hd => le_toNat_of_mem_slashed (h c hc) hd⟩, by decide⟩

/-- No line of an artifact holds a control if its chunks do not. -/
theorem le_toNat_of_mem_documentLines {chunks : List Text} (h : ∀ chunk ∈ chunks, ∀ c ∈ chunk, 0x20 ≤ c.toNat) :
    ∀ line ∈ documentLines chunks, ∀ c ∈ line, 0x20 ≤ c.toNat := by
  simp only [documentLines, List.forall_mem_append]
  refine ⟨⟨by decide, fun line hline => ?_⟩, by decide⟩
  obtain ⟨written, hwritten, heq⟩ := exists_of_mem_withCommas hline
  obtain ⟨chunk, hchunk, rfl⟩ := List.mem_map.1 hwritten
  have hwrittenLine := le_toNat_of_mem_chunkLine (h chunk hchunk)
  rcases heq with rfl | rfl
  · exact hwrittenLine
  · exact List.forall_mem_append.2 ⟨hwrittenLine, by decide⟩

/-- A chunk without controls is written as on its line. -/
theorem writeString_eq {chunk : Text} (h : ∀ c ∈ chunk, 0x20 ≤ c.toNat) :
    Text.ofString "    " ++ Json.writeString .unicode chunk = chunkLine chunk := by
  have hslashed : chunk.flatMap (Json.writeChar .unicode) = chunk.flatMap slashed :=
    List.flatMap_congr fun c hc => writeChar_eq_slashed (h c hc)
  rw [Json.writeString, hslashed]
  rfl

theorem writtenItems_map_string (level : Nat) (chunks : List Text) :
    Json.writtenItems .lines .unicode level (chunks.map .string) = chunks.map (Json.writeString .unicode) := by
  induction chunks with
  | nil => rfl
  | cons chunk chunks ih =>
    rw [List.map_cons, Json.writtenItems, ih, Json.written, List.map_cons]

/-- The chunks of a document stand behind its other members. -/
theorem written_document (chunks : Json) :
    Json.written .lines .unicode 0 (.object [("generator", .string generator), ("version", .integer version),
      ("chunks", chunks)]) = Text.ofString "\x7b\n  \"generator\": \"modmanifest\",\n  \"version\": 1,\n  \"chunks\": " ++
        Json.written .lines .unicode 1 chunks ++ "\n\x7d" := by
  simp only [Json.written, Json.writtenMembers, Json.memberText, Json.bracketed, Text.joinWith, List.append_assoc]
  rfl

/-- An artifact has each of its chunks on a line of its own. -/
theorem documentText_eq_linesText {chunks : List Text} (hne : chunks ≠ [])
    (h : ∀ chunk ∈ chunks, ∀ c ∈ chunk, 0x20 ≤ c.toNat) :
    documentText chunks = linesText (documentLines chunks) := by
  obtain ⟨first, rest, rfl⟩ := List.exists_cons_of_ne_nil hne
  have hlines : ((first :: rest).map (Json.writeString .unicode)).map (fun item => Text.ofString "    " ++ item) =
      (first :: rest).map chunkLine := by
    rw [List.map_map]
    exact List.map_congr_left fun chunk hchunk => writeString_eq (h chunk hchunk)
  have hitems := lineBreaks_eq_linesText "    " (Json.writeString .unicode first) (rest.map (Json.writeString .unicode))
  rw [← List.map_cons, hlines] at hitems
  have hchunks : Json.written .lines .unicode 1 (.array ((first :: rest).map .string)) =
      .scalar '[' :: Json.lineBreak 2 ++ Text.joinWith (.scalar ',' :: Json.lineBreak 2)
        ((first :: rest).map (Json.writeString .unicode)) ++ Json.lineBreak 1 ++ [.scalar ']'] := by
    rw [Json.written, writtenItems_map_string]
    rfl
  rw [documentText, Json.indented, documentJson, written_document, hchunks, documentLines, linesText_append,
    linesText_append, chunkLines, ← hitems]
  simp only [List.append_assoc, List.cons_append]
  rfl

/-! ## Artifacts -/

/-- A payload holds no control, because strings escape controls and no blanks stand between its tokens. -/
theorem le_toNat_of_mem_payload (m : Manifest) : ∀ c ∈ payload m, 0x20 ≤ c.toNat :=
  Json.forall_mem_written (by decide) (Json.Layout.all_dense _) _ 0 (isPlain_payloadJson m)
    (Json.allStrings_true (fun _ _ _ => id) _)

theorem payload_ne_nil (m : Manifest) : payload m ≠ [] := by
  rw [payload, Json.compact, payloadJson, Json.written, Json.bracketed]
  split <;> exact List.cons_ne_nil _ _

/-- The document of an artifact holds its payload cut into chunks, each on a line of its own of at most twice as many
characters as a chunk may have and seven more, with six lines around them. Every line ends with a line feed, which is
the only control in the artifact. -/
theorem encode_lines (m : Manifest) {chunkSize : Int} (h : 1 ≤ chunkSize) :
    ∃ text chunks, encode m chunkSize = .ok text ∧ Json.parse text = .ok (documentJson chunks) ∧
      IsCut chunkSize.toNat (payload m) chunks ∧ chunks.length = (payload m).length ⌈/⌉ chunkSize.toNat ∧
      Text.splitOn (.scalar '\n') text = openingLines ++ chunkLines chunks ++ closingLines ++ [[]] ∧
      (openingLines ++ chunkLines chunks ++ closingLines).length = chunks.length + 6 ∧
      (chunkLines chunks).length = chunks.length ∧
      (∀ line ∈ chunkLines chunks, (line.length : Int) ≤ 2 * chunkSize + 7) ∧
      ∀ c ∈ text, c.toNat < 0x20 → c = .scalar '\n' := by
  have hsize : 0 < chunkSize.toNat := by omega
  have hcut := isCut_chunksOf hsize (payload m)
  have hne : chunksOf chunkSize.toNat (payload m) ≠ [] := by
    intro hnil
    exact payload_ne_nil m (by rw [← hcut.joined, hnil, List.flatten_nil])
  have hprinted : ∀ chunk ∈ chunksOf chunkSize.toNat (payload m), ∀ c ∈ chunk, 0x20 ≤ c.toNat := by
    intro chunk hchunk c hc
    exact le_toNat_of_mem_payload m c (hcut.joined ▸ List.mem_flatten_of_mem hchunk hc)
  have hlines := le_toNat_of_mem_documentLines hprinted
  have htext := documentText_eq_linesText hne hprinted
  have hbreaks : ∀ line ∈ documentLines (chunksOf chunkSize.toNat (payload m)), .scalar '\n' ∉ line :=
    fun line hline hmem => absurd (hlines line hline _ hmem) (by decide)
  refine ⟨_, _, encode_of_le h m, parse_documentText _, hcut, hcut.length_eq hsize, ?_, length_documentLines _, ?_,
    fun line hline => ?_, fun c hc hlow => ?_⟩
  · rw [htext]
    exact splitOn_linesText hbreaks
  · rw [chunkLines, length_withCommas, List.length_map]
  · obtain ⟨written, hwritten, heq⟩ := exists_of_mem_withCommas hline
    obtain ⟨chunk, hchunk, rfl⟩ := List.mem_map.1 hwritten
    have hchunkLine := length_chunkLine_le chunk
    have hchunkLength := hcut.length_le chunk hchunk
    rcases heq with rfl | rfl
    · omega
    · rw [List.length_append, List.length_singleton]
      omega
  · rw [htext, linesText] at hc
    obtain ⟨line, hline, hc⟩ := List.mem_flatMap.1 hc
    rcases List.mem_append.1 hc with hc | hc
    · exact absurd (hlines line hline c hc) (by omega)
    · exact List.mem_singleton.1 hc

/-- The payload of two equal modules, one of them in a bucket whose name is to be escaped, in chunks of ten. -/
theorem encode_lines_twins : (1 : Int) ≤ 10 ∧ ∃ text chunks, encode twins 10 = .ok text ∧
    Json.parse text = .ok (documentJson chunks) ∧ chunks.flatten = payload twins ∧
    chunks.length = 14 ∧ (Text.splitOn (.scalar '\n') text).length = 21 ∧
    (∀ line ∈ chunkLines chunks, (line.length : Int) ≤ 27) ∧ ∀ c ∈ text, c.toNat < 0x20 → c = .scalar '\n' := by
  have hsize : (1 : Int) ≤ 10 := by decide
  obtain ⟨text, chunks, hencode, hparse, hcut, hcount, hsplit, hlines, -, hline, hcontrol⟩ := encode_lines twins hsize
  have hpayload : (payload twins).length = 139 := rfl
  rw [hpayload] at hcount
  refine ⟨hsize, text, chunks, hencode, hparse, hcut.joined, hcount, ?_, hline, hcontrol⟩
  rw [hsplit, List.length_append, hlines, hcount]
  rfl

end ModuleCatalog.Artifact
