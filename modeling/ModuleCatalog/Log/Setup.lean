import ModuleCatalog.FileSystem.Change
import ModuleCatalog.Log.Lineage
import ModuleCatalog.Text.Utf8

/-!
# Setting the log up

Records go to the handlers of the loggers above their own. A call that sets the log up gives the root logger of the
package a level and new handlers: the console and, if there is one, a log file. The handlers of earlier calls are gone
even if the log file cannot be opened; then the console alone is left, with the new level. No other logger is
ever set up. A record that meets no handler goes to the console without its level if it is a warning or worse. Log
files only grow.
-/

namespace ModuleCatalog.Log

/-- Where a handler puts the lines of records. -/
inductive Sink
  | console
  | file (path : Path)
  deriving Repr

/-- A handler takes the records of a level at least. -/
structure Handler where
  level : Level
  sink : Sink
  deriving Repr

/-- A logger: its level, whether its records go on to the handlers above, and its own handlers. -/
structure Logger where
  level : Level
  propagates : Bool
  handlers : List Handler
  deriving Repr

/-- A logger as it is made. -/
def Logger.fresh : Logger := ⟨.unset, true, []⟩

/-- A call that sets the log up. It may be refused its log file by a fault that the files do not show, after
directories have been made for a number of parts of the path. -/
structure Call where
  verbose : Bool
  quiet : Bool
  file : Option Path
  refusal : Option (FileSystem.Fault × Nat)

def Call.level (c : Call) : Level := .wanted c.verbose c.quiet

/-- A record as it comes, with the time stamp of its line in a file, and with what the console shows if this line
cannot be written. -/
structure Entry where
  record : Record
  stamp : Text
  report : Text

/-- The log: the files, what has been written to the console, the names of the loggers that have been asked for, and
the root logger of the package. -/
structure Session where
  files : FileSystem
  console : Text
  names : List Text
  package : Logger

namespace Session

/-! ## Loggers -/

/-- Ask for a logger. -/
def ask (s : Session) (name : Text) : Session := { s with names := s.names.insert name }

/-- The logger of a name. -/
def logger (s : Session) (name : Text) : Logger := if name = root then s.package else .fresh

/-- The least level of the records of a logger: the first one that is set above it. -/
def threshold (s : Session) (lineage : List Text) : Level :=
  ((lineage.map fun name => (s.logger name).level).find? fun level => level ≠ .unset).getD .warning

/-- The handlers of a logger and of those above it, as far as its records go. -/
def handlersFrom (s : Session) : List Text → List Handler
  | [] => []
  | name :: above =>
    let logger := s.logger name
    logger.handlers ++ if logger.propagates then s.handlersFrom above else []

/-! ## Calls -/

/-- Open a log file, together with the directories above it. Its path is made absolute. -/
def openLog (fs : FileSystem) (path : Path) (refusal : Option (FileSystem.Fault × Nat)) :
    FileSystem × Except FileSystem.Error Path :=
  match refusal with
  | some (fault, progress) => ((fs.ensureDirectories (path.parent.upTo progress)).1, .error (.fault fault []))
  | none =>
    match fs.ensureDirectories path.parent with
    | (fs, .error e) => (fs, .error e)
    | (fs, .ok ()) =>
      let path := fs.absolute path
      match fs.openFile path with
      | .ok fs => (fs, .ok path)
      | .error e => (fs, .error e)

/-- Set the log up. -/
def configure (s : Session) (c : Call) : Session × Except FileSystem.Error Logger :=
  let s := s.ask root
  let console : Logger := ⟨c.level, false, [⟨c.level, .console⟩]⟩
  match c.file with
  | none => ({ s with package := console }, .ok console)
  | some path =>
    match openLog s.files path c.refusal with
    | (files, .error e) => ({ s with files, package := console }, .error e)
    | (files, .ok path) =>
      let both := { console with handlers := console.handlers ++ [⟨c.level, .file path⟩] }
      ({ s with files, package := both }, .ok both)

/-! ## Records -/

/-- Write a line to a file, if it has bytes. -/
def writeLine (fs : FileSystem) (path : Path) (line : Text) : Option FileSystem :=
  match Utf8.encode line with
  | .error _ => none
  | .ok bytes => (fs.append path bytes).toOption

/-- Put a record into a sink. -/
def put (s : Session) (e : Entry) : Sink → Session
  | .console => { s with console := s.console ++ e.record.consoleLine }
  | .file path =>
    match writeLine s.files path (e.record.fileLine e.stamp) with
    | some files => { s with files }
    | none => { s with console := s.console ++ e.report }

def handle (s : Session) (e : Entry) (handler : Handler) : Session :=
  if e.record.level.reaches handler.level then s.put e handler.sink else s

/-- Write a record on its logger. Levels that are not positive are never written. -/
def write (s : Session) (e : Entry) : Session :=
  let s := s.ask e.record.logger
  let lineage := lineage s.names e.record.logger
  if 0 < e.record.level.rank ∧ e.record.level.reaches (s.threshold lineage) then
    match s.handlersFrom lineage with
    | [] =>
      if e.record.level.reaches .warning then { s with console := s.console ++ e.record.plainLine } else s
    | handlers => handlers.foldl (fun s handler => s.handle e handler) s
  else s

end Session

/-! ## Runs -/

/-- What may happen to a log: a call, a request for a logger, or a record. -/
inductive Event
  | call (c : Call)
  | ask (name : Option Text)
  | entry (e : Entry)

namespace Session

def take (s : Session) : Event → Session
  | .call c => (s.configure c).1
  | .ask name => s.ask (loggerName name)
  | .entry e => s.write e

def run (s : Session) (events : List Event) : Session := events.foldl take s

end Session

end ModuleCatalog.Log
