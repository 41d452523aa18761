import ModuleCatalog.Text.Basic

/-!
# Line ends

Files may end their lines with LF, CRLF or CR. Reading a file turns each of the three into LF, so the
readers behind it know one line end only.
-/

namespace ModuleCatalog.Text

/-- Every CRLF and every remaining CR becomes LF. -/
def foldNewlines : Text → Text
  | [] => []
  | .scalar '\r' :: .scalar '\n' :: t => .scalar '\n' :: foldNewlines t
  | .scalar '\r' :: t => .scalar '\n' :: foldNewlines t
  | c :: t => c :: foldNewlines t

/-- Every LF is written as CRLF. -/
def unfoldNewlines : Text → Text
  | [] => []
  | .scalar '\n' :: t => .scalar '\r' :: .scalar '\n' :: unfoldNewlines t
  | c :: t => c :: unfoldNewlines t

end ModuleCatalog.Text
