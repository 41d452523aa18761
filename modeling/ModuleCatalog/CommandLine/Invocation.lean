import ModuleCatalog.CommandLine.Options

/-!
# The command line

There are three commands: `generate` scans a source tree and writes its manifest, `show` lists what a
stored manifest holds, and `serve` answers lookups. The help texts are laid out for 80 columns.
-/

namespace ModuleCatalog.CommandLine

/-- Where artifacts are stored if nothing else is said. -/
def defaultArtifact : Text := "vendor/modules.json"

/-- What an option has been given: a value, or two dashes in its place, which are nothing. -/
inductive Given (α : Type)
  | nothing
  | value (a : α)
  deriving DecidableEq, Repr

inductive Command
  | generate (path : Text) (output : Option (Given Text)) (config : Option (Given Text))
  | show (artifact : Given Text) (category : Option (Given Text)) (json : Bool)
  | serve (artifact : Given Text) (host : Given Text) (port : Given Int)
  deriving DecidableEq, Repr

/-- A command, and how much of the log is wanted. -/
structure Invocation where
  verbose : Bool
  quiet : Bool
  command : Command
  deriving DecidableEq, Repr

def helpOption : OptionSpec := ⟨"help", ["-h", "--help"], .help⟩

def verboseOption : OptionSpec := ⟨"verbose", ["-v", "--verbose"], .switch⟩

def mainUsage : Text := "usage: modmanifest [-h] [-v] [-q] \x7bgenerate,show,serve\x7d ...\n"

def mainHelp : Text :=
  "
Discover @module annotated classes and build a category manifest.

positional arguments:
  \x7bgenerate,show,serve\x7d
    generate            Scan a source tree and write the module manifest
                        artifact.
    show                List categories and modules from an existing artifact.
    serve               Serve manifest lookups over HTTP.

options:
  -h, --help            show this help message and exit
  -v, --verbose         Increase log verbosity for troubleshooting.
  -q, --quiet           Only log warnings and errors.
"

def mainGrammar : Grammar where
  program := "modmanifest"
  usage := mainUsage
  help := mainUsage ++ mainHelp
  options := [helpOption, verboseOption, ⟨"quiet", ["-q", "--quiet"], .switch⟩]
  operand := .command "command" ["generate", "show", "serve"]

def generateUsage : Text :=
  "usage: modmanifest generate [-h] [-v] [-o OUTPUT] [--config CONFIG] [path]\n"

def generateHelp : Text :=
  "
positional arguments:
  path                  Root of the source tree to scan (defaults to current
                        directory).

options:
  -h, --help            show this help message and exit
  -v, --verbose         Increase log verbosity for troubleshooting.
  -o OUTPUT, --output OUTPUT
                        Artifact path; relative paths resolve against the root
                        (default: vendor/modules.json).
  --config CONFIG       Configuration file (defaults to .modmanifest.yml in
                        the root).
"

def generateGrammar : Grammar where
  program := "modmanifest generate"
  usage := generateUsage
  help := generateUsage ++ generateHelp
  options := [helpOption, verboseOption, ⟨"output", ["-o", "--output"], .text⟩,
    ⟨"config", ["--config"], .text⟩]
  operand := .optional "path"

def showUsage : Text :=
  "usage: modmanifest show [-h] [-v] [--artifact ARTIFACT] [--category CATEGORY]
                        [--json]
"

def showHelp : Text :=
  "
options:
  -h, --help           show this help message and exit
  -v, --verbose        Increase log verbosity for troubleshooting.
  --artifact ARTIFACT  Artifact to read.
  --category CATEGORY  Only list modules registered under this category.
  --json               Emit machine readable JSON.
"

def showGrammar : Grammar where
  program := "modmanifest show"
  usage := showUsage
  help := showUsage ++ showHelp
  options := [helpOption, verboseOption, ⟨"artifact", ["--artifact"], .text⟩,
    ⟨"category", ["--category"], .text⟩, ⟨"json", ["--json"], .switch⟩]
  operand := .nothing

def serveUsage : Text :=
  "usage: modmanifest serve [-h] [-v] [--artifact ARTIFACT] [--host HOST]
                         [--port PORT]
"

def serveHelp : Text :=
  "
options:
  -h, --help           show this help message and exit
  -v, --verbose        Increase log verbosity for troubleshooting.
  --artifact ARTIFACT  Artifact to serve.
  --host HOST          Interface to bind.
  --port PORT          Port to bind.
"

def serveGrammar : Grammar where
  program := "modmanifest serve"
  usage := serveUsage
  help := serveUsage ++ serveHelp
  options := [helpOption, verboseOption, ⟨"artifact", ["--artifact"], .text⟩,
    ⟨"host", ["--host"], .text⟩, ⟨"port", ["--port"], .integer⟩]
  operand := .nothing

namespace Settings

def isOn (settings : Settings) (key : Text) : Bool := Assoc.get? key settings = some .on

def text? (settings : Settings) (key : Text) : Option (Given Text) :=
  match Assoc.get? key settings with
  | some (.text value) => some (.value value)
  | some .nothing => some .nothing
  | _ => none

def integer? (settings : Settings) (key : Text) : Option (Given Int) :=
  match Assoc.get? key settings with
  | some (.integer value) => some (.value value)
  | some .nothing => some .nothing
  | _ => none

/-- The text of an operand, which is never nothing. -/
def operand? (settings : Settings) (key : Text) : Option Text :=
  match Assoc.get? key settings with
  | some (.text value) => some value
  | _ => none

end Settings

/-- The grammar of a command, and the command that settings make. -/
def commandOf (name : Text) : Grammar × (Settings → Command) :=
  if name = "generate" then
    (generateGrammar, fun s =>
      .generate ((s.operand? "path").getD ".") (s.text? "output") (s.text? "config"))
  else if name = "show" then
    (showGrammar, fun s =>
      .show ((s.text? "artifact").getD (.value defaultArtifact)) (s.text? "category") (s.isOn "json"))
  else
    (serveGrammar, fun s => .serve ((s.text? "artifact").getD (.value defaultArtifact))
      ((s.text? "host").getD (.value "127.0.0.1")) ((s.integer? "port").getD (.value 8000)))

/-- Read the arguments of a run. What neither the program nor the command takes is refused. -/
def parse (arguments : List Text) : Except Exit Invocation := do
  let outer ← mainGrammar.parse arguments
  let (name, rest) := outer.command.getD ([], [])
  let (grammar, make) := commandOf name
  let inner ← grammar.parse rest
  match outer.leftOver ++ inner.leftOver with
  | [] =>
    .ok ⟨outer.settings.isOn "verbose" || inner.settings.isOn "verbose", outer.settings.isOn "quiet",
      make inner.settings⟩
  | unrecognized =>
    .error (mainGrammar.refuse ("unrecognized arguments: " ++ Text.joinWith " " unrecognized))

end ModuleCatalog.CommandLine
