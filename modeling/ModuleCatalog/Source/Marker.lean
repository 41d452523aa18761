import ModuleCatalog.Text.Blank
import ModuleCatalog.Text.Word

/-!
# Markers in doc comments

A doc comment opens with a slash and two asterisks. A marker is the word `@module` with a space after
it, followed by category text up to the end of the line, before the comment closes. A line that begins
like a marker and holds other characters is no marker, and the search goes on behind it.
-/

namespace ModuleCatalog.Source

/-- The characters of category text. -/
def isMarkerChar (c : CodePoint) : Bool :=
  c.isWord || c = .scalar ' ' || c = .scalar '$' || c = .scalar '(' || c = .scalar ')' ||
    c = .scalar ',' || c = .scalar '='

/-- What follows a line end at the front of a text. -/
def dropLineEnd? (t : Text) : Option Text :=
  match t with
  | .scalar '\n' :: rest => some rest
  | .scalar '\r' :: .scalar '\n' :: rest => some rest
  | _ => none

/-- A marker at the front of a text: its category text and what follows its line end. -/
def markerAt? (t : Text) : Option (Text × Text) := do
  let rest ← Text.dropLiteral? "@module " t
  match rest.takeWhile isMarkerChar with
  | [] => none
  | categories =>
    let rest ← dropLineEnd? (rest.dropWhile isMarkerChar)
    some (categories, rest)

/-- The first marker before a comment closes. -/
def markerInComment? : Text → Option (Text × Text)
  | [] => none
  | c :: t =>
    match markerAt? (c :: t) with
    | some marker => some marker
    | none => if Text.startsWith (c :: t) "*/" then none else markerInComment? t

/-- The first marker in any doc comment. -/
def nextMarker? : Text → Option (Text × Text)
  | [] => none
  | c :: t =>
    match (Text.dropLiteral? "/**" (c :: t)).bind markerInComment? with
    | some marker => some marker
    | none => nextMarker? t

theorem length_of_dropLineEnd? {t rest : Text} (h : dropLineEnd? t = some rest) :
    rest.length < t.length := by
  unfold dropLineEnd? at h
  split at h
  · cases h; simp
  · cases h; exact Nat.lt_succ_of_lt (Nat.lt_succ_self _)
  · cases h

theorem length_of_markerAt? {t categories rest : Text} (h : markerAt? t = some (categories, rest)) :
    rest.length < t.length := by
  simp only [markerAt?, Option.bind_eq_bind, Option.bind_eq_some_iff] at h
  obtain ⟨body, hbody, h⟩ := h
  split at h
  · cases h
  · obtain ⟨rest', hend, h⟩ := Option.bind_eq_some_iff.1 h
    cases h
    have hlength := length_of_dropLineEnd? hend
    have hdrop : (body.dropWhile isMarkerChar).length ≤ body.length :=
      (List.dropWhile_sublist _).length_le
    rw [Text.eq_append_of_dropLiteral? hbody, List.length_append]
    omega

theorem length_of_markerInComment? {t categories rest : Text}
    (h : markerInComment? t = some (categories, rest)) : rest.length < t.length := by
  induction t with
  | nil => simp [markerInComment?] at h
  | cons c t ih =>
    rw [markerInComment?] at h
    split at h
    · next hat => cases h; exact length_of_markerAt? hat
    · split at h
      · cases h
      · have := ih h
        simp only [List.length_cons]
        omega

theorem length_of_nextMarker? {t categories rest : Text}
    (h : nextMarker? t = some (categories, rest)) : rest.length < t.length := by
  induction t with
  | nil => simp [nextMarker?] at h
  | cons c t ih =>
    rw [nextMarker?] at h
    split at h
    · next hat =>
      cases h
      obtain ⟨body, hbody, hmarker⟩ := Option.bind_eq_some_iff.1 hat
      have := length_of_markerInComment? hmarker
      rw [Text.eq_append_of_dropLiteral? hbody, List.length_append]
      omega
    · have := ih h
      simp only [List.length_cons]
      omega

/-- All markers in order, each with its trimmed category text and what follows its line end. The
search for the next one begins there. -/
def markers (t : Text) : List (Text × Text) :=
  match _h : nextMarker? t with
  | none => []
  | some (categories, rest) => (categories.trim, rest) :: markers rest
termination_by t.length
decreasing_by exact length_of_nextMarker? ‹_›

theorem markers_of_none {t : Text} (h : nextMarker? t = none) : markers t = [] := by
  rw [markers]
  split
  · rfl
  · next h' => cases h.symm.trans h'

theorem markers_of_some {t categories rest : Text} (h : nextMarker? t = some (categories, rest)) :
    markers t = (categories.trim, rest) :: markers rest := by
  rw [markers]
  split
  · next h' => cases h.symm.trans h'
  · next h' =>
    cases h.symm.trans h'
    rfl

/-- The markers behind a place of a text, each with the place behind its line end. A place before the
text counts as its beginning. -/
def markersFrom (t : Text) (start : Int) : List (Text × Nat) :=
  (markers (t.drop start.toNat)).map fun (categories, rest) => (categories, t.length - rest.length)

end ModuleCatalog.Source
