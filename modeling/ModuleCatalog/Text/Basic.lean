/-!
# Texts as sequences of code points

A text is a list of Unicode code points. Surrogates may stand alone in it, because escapes in stored
documents can produce them; everything that writes bytes has to say what happens to such a text.
Offsets, lengths and the order of texts count code points.
-/

namespace ModuleCatalog

/-- A Unicode code point: a scalar value, or a surrogate that stands alone. -/
inductive CodePoint
  | scalar (c : Char)
  | surrogate (offset : Fin 2048)
  deriving DecidableEq, Repr

namespace CodePoint

instance : Inhabited CodePoint := ⟨.scalar 'A'⟩

instance : Coe Char CodePoint := ⟨.scalar⟩

/-- Surrogates occupy the range from `D800` to `DFFF`, which no scalar value uses. -/
def toNat : CodePoint → Nat
  | .scalar c => c.toNat
  | .surrogate offset => 0xD800 + offset.val

/-- The code point with a given number, if there is one. -/
def ofNat? (n : Nat) : Option CodePoint :=
  if n.isValidChar then some (.scalar (Char.ofNat n))
  else if h : 0xD800 ≤ n ∧ n < 0xE000 then some (.surrogate ⟨n - 0xD800, by omega⟩)
  else none

/-- A number that is no code point is read as the replacement character. -/
def ofNat (n : Nat) : CodePoint := (ofNat? n).getD (.scalar '\uFFFD')

def isSurrogate : CodePoint → Bool
  | .scalar _ => false
  | .surrogate _ => true

/-- The first half of a surrogate pair. -/
def isHighSurrogate (c : CodePoint) : Bool := 0xD800 ≤ c.toNat && c.toNat < 0xDC00

/-- The second half of a surrogate pair. -/
def isLowSurrogate (c : CodePoint) : Bool := 0xDC00 ≤ c.toNat && c.toNat < 0xE000

/-- Strict order by number. -/
def before (a b : CodePoint) : Bool := a.toNat < b.toNat

end CodePoint

/-- A finite sequence of code points. -/
abbrev Text := List CodePoint

instance : LawfulBEq Text := inferInstance

namespace Text

/-- Every string of characters is a text without surrogates. -/
def ofString (s : String) : Text := s.toList.map .scalar

instance : Coe String Text := ⟨ofString⟩

/-- A surrogate is shown as the replacement character. -/
def toString (t : Text) : String :=
  String.ofList (t.map fun
    | .scalar c => c
    | .surrogate _ => '\uFFFD')

/-- Whether UTF-8 can hold the text. -/
def isUnicode (t : Text) : Bool := t.all fun c => !c.isSurrogate

/-- Lexicographic order by code point, a proper prefix before its extensions. -/
def before : Text → Text → Bool
  | [], [] => false
  | [], _ :: _ => true
  | _ :: _, [] => false
  | a :: s, b :: t => if a = b then before s t else a.before b

/-- What follows a literal at the front of a text. -/
def dropLiteral? : Text → Text → Option Text
  | [], t => some t
  | _ :: _, [] => none
  | a :: l, c :: t => if a = c then dropLiteral? l t else none

/-- Whether a text starts with a literal. -/
def startsWith (t l : Text) : Bool := (dropLiteral? l t).isSome

/-- Whether a text ends with a literal. -/
def endsWith (t l : Text) : Bool := startsWith t.reverse l.reverse

/-- The pieces between the occurrences of a separator; there is one more piece than occurrences. -/
def splitOn (separator : CodePoint) : Text → List Text
  | [] => [[]]
  | c :: t =>
    if c = separator then [] :: splitOn separator t
    else match splitOn separator t with
      | [] => [[c]]
      | piece :: pieces => (c :: piece) :: pieces

/-- The pieces with a separator between any two neighbours. -/
def joinWith (separator : Text) : List Text → Text
  | [] => []
  | [piece] => piece
  | piece :: pieces => piece ++ separator ++ joinWith separator pieces

/-- The parts before and after the first occurrence of a separator, if there is one. -/
def splitFirst? (separator : CodePoint) : Text → Option (Text × Text)
  | [] => none
  | c :: t =>
    if c = separator then some ([], t)
    else (splitFirst? separator t).map fun (before, after) => (c :: before, after)

/-- Every occurrence of a code point is left out. -/
def without (c : CodePoint) (t : Text) : Text := t.filter fun x => x ≠ c

theorem dropLiteral?_append (l t : Text) : dropLiteral? l (l ++ t) = some t := by
  induction l with
  | nil => rfl
  | cons a l ih => simp [dropLiteral?, ih]

theorem eq_append_of_dropLiteral? {l t rest : Text} (h : dropLiteral? l t = some rest) :
    t = l ++ rest := by
  induction l generalizing t with
  | nil => simpa [dropLiteral?] using h
  | cons a l ih =>
    cases t with
    | nil => simp [dropLiteral?] at h
    | cons c t =>
      by_cases hac : a = c
      · simp only [dropLiteral?, hac, if_true] at h
        simp [hac, ih h]
      · simp [dropLiteral?, hac] at h

theorem dropLiteral?_eq_some_iff {l t rest : Text} :
    dropLiteral? l t = some rest ↔ t = l ++ rest :=
  ⟨eq_append_of_dropLiteral?, fun h => h ▸ dropLiteral?_append l rest⟩

theorem splitOn_ne_nil (separator : CodePoint) (t : Text) : splitOn separator t ≠ [] := by
  cases t with
  | nil => simp [splitOn]
  | cons c t =>
    by_cases h : c = separator
    · simp [splitOn, h]
    · simp only [splitOn, h, if_false]
      split <;> simp

end Text

end ModuleCatalog
