import ModuleCatalog.CommandLine.Run
import ModuleCatalog.FileSystem.Difference
import Std.Http

/-!
# The program

Before a command runs, the part of the real file system that it depends on is looked at; what the command
adds to that part is written back. Files are written beside their place and then moved there. The service
does the same for every request.
-/

namespace ModuleCatalog.Program

/-! ## Looking at the real file system -/

/-- The text of a location. -/
def locationText (location : List Text) : String := Text.toString (Path.mk .slash location).toText

/-- A name that no file has. -/
def nowhere : Text := [.scalar '\x00']

/-- Where a real link leads in the end. -/
def leadsTo (entry : IO.FS.DirEntry) : IO Text := do
  try
    return Text.ofString (← IO.FS.realPath entry.path).toString
  catch _ => return nowhere

def nodeOf (entry : IO.FS.DirEntry) : IO.FS.FileType → IO Node
  | .dir => return .directory []
  | .file => return .file [] 0o644
  | .other => return .special none
  | .symlink => return .link (← leadsTo entry)

/-- What a real entry is; the content of files is left out. -/
def look (entry : IO.FS.DirEntry) : IO (Option Node) := do
  try
    return some (← nodeOf entry (← entry.path.symlinkMetadata).type)
  catch _ => return none

/-- What a real entry is to a walk: a link to a file is a file, and other links lead nowhere. -/
def lookThrough (entry : IO.FS.DirEntry) : IO Node := do
  match ← look entry with
  | some (.link _) =>
    try
      match (← entry.path.metadata).type with
      | .file => return .file [] 0o644
      | _ => return .link nowhere
    catch _ => return .link nowhere
  | some node => return node
  | none => return .special none

/-- The entries below a real directory. -/
partial def survey (directory : String) : IO (List (Text × Node)) := do
  let entries ← try (← IO.FS.realPath directory).readDir catch _ => pure #[]
  entries.toList.mapM fun entry => do
    let name := Text.ofString entry.fileName
    match ← lookThrough entry with
    | .directory _ => return (name, .directory (← survey (directory ++ "/" ++ entry.fileName)))
    | node => return (name, node)

/-- Look at the names of a path one after the other. -/
partial def reveal (fs : FileSystem) (done : List Text) : List Text → IO FileSystem
  | [] => return fs
  | name :: names => do
    if name = ".." then return ← reveal fs done.dropLast names
    let location := done ++ [name]
    match ← look ⟨locationText done, Text.toString name⟩ with
    | none => return fs
    | some (.link target) =>
      let fs := fs.insertNew location (.link target)
      reveal fs [] ((Path.parse target).parts ++ names)
    | some node => reveal (fs.insertNew location node) location names

/-- Look at what is on the way to a path. -/
def revealPath (fs : FileSystem) (path : Path) : IO FileSystem :=
  reveal fs [] (fs.workingPath.join path).parts

/-- What is at a path now that the way to it is known, and its location. -/
def found? (fs : FileSystem) (path : Path) : Option (List Text × Node) :=
  match fs.resolve path with
  | .error _ => none
  | .ok path => (fs.at? path.parts).map fun node => (path.parts, node)

/-- Read the file at a path. -/
def fill (fs : FileSystem) (path : Path) : IO FileSystem := do
  let fs ← revealPath fs path
  match found? fs path with
  | some (location, .file ..) =>
    try
      let content ← IO.FS.readBinFile (locationText location)
      return fs.insert location (.file content.toList 0o644)
    catch _ => return fs.insert location (.special (some .inputOutput))
  | _ => return fs

/-- Look at the tree below a path. -/
def surveyPath (fs : FileSystem) (path : Path) : IO FileSystem := do
  let fs ← revealPath fs path
  match found? fs path with
  | some (location, .directory _) =>
    return fs.insert location (.directory (← survey (locationText location)))
  | _ => return fs

/-- Read a configuration file, or the one in a directory. -/
def fillConfig (fs : FileSystem) (path : Path) : IO FileSystem := do
  let path := (fs.expandHome path).toOption.getD path
  fill (← fill fs path) (path.child Config.fileName)

/-- The part of the file system that a generation depends on: the configuration, the source files and
the way to the artifact. -/
def prepareGeneration (fs : FileSystem) (root : Path) (config output : Option Path) : IO FileSystem := do
  let fs ← surveyPath fs root
  let fs ← fillConfig fs (config.getD root)
  match Config.loadForRoot fs root config with
  | .error _ => return fs
  | .ok c =>
    let fs ← revealPath fs (Generation.targetOf c root output)
    match (Discovery.sourceFiles fs c root).outcome with
    | .error _ => return fs
    | .ok files => files.foldlM fill fs

/-- The working directory and what stands on the way to it. -/
def start : IO FileSystem := do
  let working := (Path.parse (Text.ofString (← IO.currentDir).toString)).parts
  let home ← IO.getEnv "HOME"
  reveal ⟨.directory [], working, ⟨home.map Text.ofString, []⟩⟩ [] working

/-! ## Writing back -/

/-- Whether a bit of a number is set. -/
def hasBit (mode bit : Nat) : Bool := mode / bit % 2 = 1

/-- Permissions as the real file system has them. -/
def rightsOf (mode : Nat) : IO.FileRight where
  user := ⟨hasBit mode 0o400, hasBit mode 0o200, hasBit mode 0o100⟩
  group := ⟨hasBit mode 0o40, hasBit mode 0o20, hasBit mode 0o10⟩
  other := ⟨hasBit mode 0o4, hasBit mode 0o2, hasBit mode 0o1⟩

def perform : FileSystem.Addition → IO Unit
  | .directory location => IO.FS.createDirAll (locationText location)
  | .file location content mode => do
    let target := locationText location
    let temporary := target ++ ".tmp"
    IO.FS.writeBinFile temporary (ByteArray.mk content.toArray)
    IO.setAccessRights temporary (rightsOf mode)
    IO.FS.rename temporary target

/-! ## Serving -/

/-- The part of the file system that a request depends on. -/
def prepareRequest (service : Service) (request : Service.Request) : IO FileSystem := do
  let fs ← fill (← start) service.artifact
  match Service.Order.parse request.body with
  | .error _ => return fs
  | .ok order => prepareGeneration fs order.root none (some (order.output.getD service.artifact))

def respond (service : Service) (request : Service.Request) : IO Service.Response := do
  let before ← prepareRequest service request
  let (after, response) := service.answer before request
  (before.additions after).forM perform
  return response

/-- A response as it is sent. -/
def encode (response : Service.Response) : Std.Async.Async (Std.Http.Response Std.Http.Body.Full) := do
  let status := (Std.Http.Status.ofCode none (UInt16.ofNat response.status)).getD .internalServerError
  let builder := Std.Http.Response.withStatus status
  let builder :=
    match response.location with
    | none => builder
    | some location => (builder.header? "Location" (Text.toString location)).getD builder
  match response.content with
  | .text t => builder.text (Text.toString t)
  | .value json => builder.json (Text.toString (json.compact .unicode))

/-- Answer a request that has been received. -/
def handle (service : Service) (received : Std.Http.Request Std.Http.Body.Stream) :
    Std.Async.ContextAsync (Std.Http.Response Std.Http.Body.Any) := do
  let body : ByteArray ← received.body.readAll
  let request : Service.Request :=
    { method := Text.ofString (toString received.line.method)
      origin := Text.ofString ("http://" ++
        ((received.line.headers.get? .host).map (·.value) |>.getD "localhost"))
      target := Service.Target.received (Text.ofString (toString received.line.uri))
      body := body.toList }
  let response ← encode (← respond service request)
  return response

/-- Serve until the program is stopped. -/
def serve (service : Service) (host : Text) (port : Int) : IO UInt32 := do
  let name := if host = "localhost" then "127.0.0.1" else Text.toString host
  let port := UInt16.ofNat port.toNat
  let address : Option Std.Net.SocketAddress :=
    match Std.Net.IPv4Addr.ofString name, Std.Net.IPv6Addr.ofString name with
    | some address, _ => some (.v4 ⟨address, port⟩)
    | none, some address => some (.v6 ⟨address, port⟩)
    | none, none => none
  match address with
  | none =>
    IO.eprintln ("Not an address: " ++ name)
    return 1
  | some address =>
    Std.Async.Async.block do
      let server ← Std.Http.Server.serve address (Std.Http.Server.Handler.ofFn (handle service))
      server.waitShutdown
    return 0

/-! ## Commands -/

/-- The part of the file system that a command depends on. -/
def prepare (i : CommandLine.Invocation) : IO FileSystem := do
  let fs ← start
  match i.command with
  | .generate path output config =>
    prepareGeneration fs (Path.parse path) (CommandLine.pathOption config)
      (output.bind fun given => (CommandLine.givenPath given).toOption)
  | .show artifact .. =>
    match CommandLine.givenPath artifact with
    | .error _ => return fs
    | .ok path => fill fs path
  | .serve artifact .. =>
    match CommandLine.givenPath artifact with
    | .error _ => return fs
    | .ok path => revealPath fs ((fs.expandHome path).toOption.getD path)

def report (out err : Text) : IO Unit := do
  IO.print (Text.toString out)
  IO.eprint (Text.toString err)

/-- Run the program with some arguments. -/
def run (arguments : List Text) : IO UInt32 := do
  match CommandLine.parse arguments with
  | .error e =>
    report e.out e.err
    return UInt32.ofNat e.code
  | .ok i =>
    let before ← prepare i
    let (after, outcome) := CommandLine.runInvocation before i
    (before.additions after).forM perform
    report outcome.out outcome.err
    match outcome.ending with
    | .exit code => return UInt32.ofNat code
    | .failed failure =>
      IO.eprintln (Text.toString failure.message)
      return 1
    | .serving service (.value host) (.value port) => serve service host port
    | .serving .. =>
      IO.eprintln "Nothing to bind to"
      return 1

end ModuleCatalog.Program

def main (arguments : List String) : IO UInt32 :=
  ModuleCatalog.Program.run (arguments.map ModuleCatalog.Text.ofString)
