import ModuleCatalog.Number.Decimal
import ModuleCatalog.Service.Target
import ModuleCatalog.Text.Lowercase
import ModuleCatalog.Text.Refusal

/-!
# URLs

A URL names an origin, if it has a scheme and a host, and a target. Its fragment is left out, dot segments
are taken out of the path, and escapes are decoded before the target is sent, so that they are decoded
twice altogether. A URL without a scheme leaves a host in front of its path out of account.
-/

namespace ModuleCatalog.Service

/-- The origin of a URL, if it has one, and the target it names there. -/
structure Url where
  origin : Option Text
  target : Target
  deriving DecidableEq, Repr

namespace Url

/-- Why a text is no URL. -/
inductive Problem
  | tooLong
  | control (c : CodePoint) (position : Nat)
  | doubleSlash
  | colon
  | surrogate (c : CodePoint)
  deriving DecidableEq, Repr

def Problem.message : Problem → Text
  | .tooLong => "URL too long"
  | .control c position =>
    "Invalid non-printable ASCII character in URL, " ++ Text.quoted [c] ++ " at position " ++
      Decimal.ofNat position ++ "."
  | .doubleSlash => "Relative URLs cannot have a path starting with '//'"
  | .colon => "Relative URLs cannot have a path starting with ':'"
  | .surrogate c => (Utf8.EncodeError.mk 0 1 c).message

/-- The number of characters of the longest URL. -/
def maxLength : Nat := 65536

/-- The controls of ASCII. -/
def isControl (c : CodePoint) : Bool := c.toNat < 0x20 || c.toNat = 0x7F

/-- Whether the characters of a text may stand in a URL. -/
def checkCharacters (t : Text) : Except Problem Unit :=
  if maxLength < t.length then .error .tooLong
  else
    match t.find? isControl, t.find? CodePoint.isSurrogate with
    | some c, _ => .error (.control c (t.takeWhile fun x => !isControl x).length)
    | none, some c => .error (.surrogate c)
    | none, none => .ok ()

/-! ## Parts -/

def isLetter (c : CodePoint) : Bool :=
  match c with
  | .scalar c => c.isAlpha
  | .surrogate _ => false

def isSchemeChar (c : CodePoint) : Bool :=
  isLetter c || c.isAsciiDigit || c = .scalar '+' || c = .scalar '.' || c = .scalar '-'

/-- Whether a text may stand before the first colon of a URL; it may be empty. -/
def isScheme (t : Text) : Bool :=
  match t with
  | [] => true
  | c :: rest => isLetter c && rest.all isSchemeChar

/-- The scheme, empty if there is none, and the rest. -/
def splitScheme (t : Text) : Text × Text :=
  match Text.splitFirst? ':' t with
  | none => ([], t)
  | some (scheme, rest) => if isScheme scheme then (scheme, rest) else ([], t)

/-- The authority, empty if there is none, and the path. -/
def splitAuthority (t : Text) : Text × Text :=
  match Text.dropLiteral? "//" t with
  | none => ([], t)
  | some rest => (rest.takeWhile (· ≠ .scalar '/'), rest.dropWhile (· ≠ .scalar '/'))

/-- The port that a scheme has if no other is named. -/
def defaultPort (scheme : Text) : Text :=
  if scheme = "http" then ":80" else if scheme = "https" then ":443" else ":"

/-- An authority without a user and without the usual port. -/
def hostOf (scheme authority : Text) : Text :=
  let host := Text.lower ((Text.splitOn '@' authority).getLast?.getD [])
  let port := defaultPort scheme
  if Text.endsWith host port then host.take (host.length - port.length) else host

/-! ## Paths -/

/-- One more segment behind others; two dots take the last one back, except an empty one in front. -/
def addSegment (kept : List Text) (segment : Text) : List Text :=
  if segment = "." then kept
  else if segment = ".." then (if kept = [] ∨ kept = [[]] then kept else kept.dropLast)
  else kept ++ [segment]

/-- A path without dot segments. -/
def withoutDots (path : Text) : Text :=
  Text.joinWith "/" ((Text.splitOn '/' path).foldl addSegment [])

/-- The path of a target: behind one slash, without dots, with its escapes decoded twice. -/
def targetPath (path : Text) : Text :=
  let path := CodePoint.scalar '/' :: path.dropWhile (· = .scalar '/')
  percentDecode (percentDecode (withoutDots path))

/-- The URL that a text is. -/
def parse (t : Text) : Except Problem Url := do
  checkCharacters t
  let (whole, query) := cut '?' (cut '#' t).1
  let (scheme, rest) := splitScheme whole
  let (authority, path) := splitAuthority rest
  if scheme.isEmpty && authority.isEmpty && Text.startsWith path "//" then .error .doubleSlash
  else if scheme.isEmpty && authority.isEmpty && Text.startsWith path ":" then .error .colon
  else
    let scheme := Text.lower scheme
    let origin := if scheme.isEmpty || authority.isEmpty then none
      else some (scheme ++ "://" ++ hostOf scheme authority)
    .ok ⟨origin, ⟨targetPath path, query⟩⟩

end Url

end ModuleCatalog.Service
