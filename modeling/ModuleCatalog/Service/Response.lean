import ModuleCatalog.Failure
import ModuleCatalog.Json.Printer
import ModuleCatalog.Service.Target

/-!
# Responses

A response has a status and a JSON value or a text. A redirection says where to go. A value that UTF-8 or
standard JSON cannot hold is not sent; the response is then that of an unexpected failure.
-/

namespace ModuleCatalog.Service

inductive Content
  | value (json : Json)
  | text (t : Text)
  deriving Repr

structure Response where
  status : Nat
  location : Option Text
  content : Content
  deriving Repr

namespace Response

/-- The response to what nobody expected. -/
def internalError : Response := ⟨500, none, .text "Internal Server Error"⟩

/-- A response with a value, as it is sent. -/
def ofJson (status : Nat) (value : Json) : Response :=
  if value.isFinite && (value.compact .unicode).isUnicode then ⟨status, none, .value value⟩
  else internalError

/-- A response that says what is wrong. -/
def detail (status : Nat) (message : Text) : Response :=
  ofJson status (.object [("detail", .string message)])

def notFound : Response := detail 404 "Not Found"

def methodNotAllowed : Response := detail 405 "Method Not Allowed"

/-- The characters that stay as they are in a location. -/
def locationMarks : Text := ":/%#?=@[]!$&'()*+,;"

/-- The way to another path of the service, which is reached at an origin. -/
def redirect (origin : Text) (target : Target) : Response :=
  let query : Text :=
    match target.query with
    | none | some [] => ""
    | some query => CodePoint.scalar '?' :: query
  ⟨307, some (percentEncode locationMarks (origin ++ target.path ++ query)), .text ""⟩

/-- A page about the service; it has no content. -/
def page : Response := ⟨200, none, .text ""⟩

/-- The response that a failure is. -/
def ofFailure : Failure → Response
  | .artifact path problem => detail 503 (Failure.artifact path problem).message
  | .discovery path problem => detail 400 (Failure.discovery path problem).message
  | .configuration problem => detail 400 (Failure.configuration problem).message
  | _ => internalError

/-- The response without its content, as a request for the head alone gets it. -/
def headOnly (r : Response) : Response := { r with content := .text "" }

end Response

end ModuleCatalog.Service
