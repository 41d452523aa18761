import ModuleCatalog.Text.Quoted
import ModuleCatalog.Number.Decimal

/-!
# What can be wrong with a YAML document

Most faults make a document malformed, without further distinction. Some values have the right shape
for their tag and still have no meaning, such as a thirteenth month; those have causes of their own.
-/

namespace ModuleCatalog.Yaml

/-- Why the parts of a date or time make no date or time. -/
inductive DateProblem
  | yearZero
  | month
  | day
  | hour
  | minute
  | second
  | offset (days : Int) (seconds : Nat)
  deriving DecidableEq, Repr

inductive Problem
  | malformed
  | codePointRange
  | codePointWidth
  | unknownTruthValue (word : Text)
  | emptyNumber
  | integerLiteral (base : Nat) (literal : Text)
  | floatLiteral (literal : Text)
  | floatRange
  | notTimestamp
  | timestampNotText
  | date (problem : DateProblem)
  deriving DecidableEq, Repr

def DateProblem.message : DateProblem → Text
  | .yearZero => "year 0 is out of range"
  | .month => "month must be in 1..12"
  | .day => "day is out of range for month"
  | .hour => "hour must be in 0..23"
  | .minute => "minute must be in 0..59"
  | .second => "second must be in 0..59"
  | .offset days seconds =>
    let seconds : Text := if seconds = 0 then "" else ", seconds=" ++ Decimal.ofNat seconds
    "offset must be a timedelta strictly between -timedelta(hours=24) and timedelta(hours=24), not " ++
      "datetime.timedelta(days=" ++ Decimal.ofInt days ++ seconds ++ ")."

/-- The number of characters of an integer that a message shows. -/
def shownLength : Nat := 200

def Problem.message : Problem → Text
  | .malformed => "malformed document"
  | .codePointRange => "chr() arg not in range(0x110000)"
  | .codePointWidth => "Python int too large to convert to C int"
  | .unknownTruthValue word => word.quoted
  | .emptyNumber => "string index out of range"
  | .integerLiteral base literal =>
    "invalid literal for int() with base " ++ Decimal.ofNat base ++ ": " ++
      literal.quoted.take shownLength
  | .floatLiteral literal => "could not convert string to float: " ++ literal.quoted
  | .floatRange => "int too large to convert to float"
  | .notTimestamp => "'NoneType' object has no attribute 'groupdict'"
  | .timestampNotText => "expected string or bytes-like object, got 'list'"
  | .date problem => problem.message

end ModuleCatalog.Yaml
