import ModuleCatalog.Assoc
import ModuleCatalog.Number.Decimal
import ModuleCatalog.Text.Basic

/-!
# Log records

A record has a level and comes from a named logger. All loggers are named below one root. A record has one
written form for the console and one for files, which shows the time and the logger. Levels are numbers, some
of which have a name.
-/

namespace ModuleCatalog.Log

structure Level where
  rank : Int
  deriving DecidableEq, Repr

namespace Level

/-- The level of a logger that leaves its level to others. -/
def unset : Level := ⟨0⟩

def debug : Level := ⟨10⟩

def info : Level := ⟨20⟩

def warning : Level := ⟨30⟩

def error : Level := ⟨40⟩

def critical : Level := ⟨50⟩

/-- The levels by name; two of them have a second name. -/
def named : List (Text × Level) :=
  [("NOTSET", .unset), ("DEBUG", .debug), ("INFO", .info), ("WARNING", .warning), ("WARN", .warning),
   ("ERROR", .error), ("CRITICAL", .critical), ("FATAL", .critical)]

/-- The first name of a level; a level without a name is shown as its number. -/
def name (level : Level) : Text :=
  match named.find? fun entry => entry.2 = level with
  | some (name, _) => name
  | none => "Level " ++ Decimal.ofInt level.rank

def ofName? (name : Text) : Option Level := Assoc.get? name named

/-- Whether a level is at least another one. -/
def reaches (level threshold : Level) : Bool := threshold.rank ≤ level.rank

/-- The least level of interest; being verbose wins over being quiet. -/
def wanted (verbose quiet : Bool) : Level :=
  if verbose then .debug else if quiet then .warning else .info

theorem reaches_iff {level threshold : Level} :
    level.reaches threshold = true ↔ threshold.rank ≤ level.rank := by
  simp [reaches]

end Level

/-- The name of the root logger. -/
def root : Text := "modmanifest"

/-- The full name of a logger; no name, or an empty one, is that of the root. -/
def loggerName (name : Option Text) : Text :=
  match name with
  | none | some [] => root
  | some name => root ++ "." ++ name

structure Record where
  logger : Text
  level : Level
  message : Text
  deriving DecidableEq, Repr

namespace Record

/-- The line on the console. -/
def consoleLine (r : Record) : Text := "[modmanifest] " ++ r.level.name ++ " " ++ r.message ++ "\n"

/-- The line in a file, with a time stamp in front. -/
def fileLine (stamp : Text) (r : Record) : Text :=
  stamp ++ " " ++ r.level.name ++ " " ++ r.logger ++ ": " ++ r.message ++ "\n"

/-- The line on the console as long as nothing has been set up. -/
def plainLine (r : Record) : Text := r.message ++ "\n"

end Record

/-- What the console shows of records. -/
def shown (threshold : Level) (records : List Record) : Text :=
  (records.filter fun r => r.level.reaches threshold).flatMap Record.consoleLine

theorem shown_nil (threshold : Level) : shown threshold [] = [] := rfl

theorem shown_append (threshold : Level) (a b : List Record) :
    shown threshold (a ++ b) = shown threshold a ++ shown threshold b := by
  simp [shown]

end ModuleCatalog.Log
