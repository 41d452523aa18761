import ModuleCatalog.Assoc
import ModuleCatalog.Number.Decimal
import ModuleCatalog.Text.Quoted

/-!
# Options and operands

A grammar lists the options of a program and says what operands it takes. An argument that begins with
a dash is an option if it is the name of one, or a name and a value joined by an equals sign, or an
unambiguous beginning of a long name, or a short name with its value or further short names right
behind it. Short names may follow the equals sign of a short switch too. After two dashes nothing is an
option; two dashes in the place of an attached value are no value. Options may stand anywhere before,
between and after operands. Whatever fits nowhere is left over.
-/

namespace ModuleCatalog.CommandLine

/-- The end of a run before its work: exit code and what goes to the two output streams. -/
structure Exit where
  code : Nat
  out : Text
  err : Text
  deriving DecidableEq, Repr

/-- What an option does: show the help and end, switch something on, or set a text or an integer. -/
inductive OptionKind
  | help
  | switch
  | text
  | integer
  deriving DecidableEq, Repr

structure OptionSpec where
  key : Text
  names : List Text
  kind : OptionKind
  deriving DecidableEq, Repr

/-- Whether an option takes a value. -/
def OptionSpec.takesValue (o : OptionSpec) : Bool :=
  match o.kind with
  | .help | .switch => false
  | .text | .integer => true

/-- An option as messages call it. -/
def OptionSpec.label (o : OptionSpec) : Text := Text.joinWith "/" o.names

/-- The operands of a program: none, one that may be missing, or the name of a command with all that
follows it. -/
inductive Operand
  | nothing
  | optional (key : Text)
  | command (key : Text) (commands : List Text)
  deriving DecidableEq, Repr

structure Grammar where
  program : Text
  usage : Text
  help : Text
  options : List OptionSpec
  operand : Operand

/-- The value of a setting: a switch that is on, a text, an integer, or nothing at all, which is what two
dashes in the place of a value give. -/
inductive Value
  | on
  | nothing
  | text (value : Text)
  | integer (value : Int)
  deriving DecidableEq, Repr

abbrev Settings := List (Text × Value)

/-- A refusal shows the usage and the reason. -/
def Grammar.refuse (g : Grammar) (reason : Text) : Exit :=
  ⟨2, [], g.usage ++ g.program ++ ": error: " ++ reason ++ "\n"⟩

/-- A refusal that concerns one option. -/
def Grammar.refuseOption (g : Grammar) (o : OptionSpec) (reason : Text) : Exit :=
  g.refuse ("argument " ++ o.label ++ ": " ++ reason)

/-! ## What an argument is -/

/-- An argument that begins like an option: the option, whether it is called by a long name, and the text
that is attached to the name. -/
inductive Reading
  | known (option : OptionSpec) (isLong : Bool) (attached : Option Text)
  | unknown
  deriving DecidableEq, Repr

/-- The role of an argument: two dashes alone, an operand or an option. -/
inductive Role
  | separator
  | operand
  | option (reading : Reading)
  deriving DecidableEq, Repr

def Role.isOption : Role → Bool
  | .option _ => true
  | _ => false

/-- Every name with its option, in the order of the grammar. -/
def Grammar.names (g : Grammar) : List (Text × OptionSpec) :=
  g.options.flatMap fun o => o.names.map fun name => (name, o)

def Grammar.option? (g : Grammar) (name : Text) : Option OptionSpec := Assoc.get? name g.names

/-- Whether an argument looks like a negative number, which is never an option. A line end at the very
end does not count. -/
def isNegativeNumber (argument : Text) : Bool :=
  let isDigit (c : CodePoint) : Bool := c.decimalValue?.isSome
  match argument with
  | .scalar '-' :: body =>
    let body := if body.getLast? = some (.scalar '\n') then body.dropLast else body
    let part := body.dropWhile isDigit
    match part with
    | [] => !body.isEmpty
    | .scalar '.' :: digits => !digits.isEmpty && digits.all isDigit
    | _ => false
  | _ => false

/-- Whether a name begins with two dashes. -/
def isLongName (name : Text) : Bool := Text.startsWith name "--"

/-- The options that an argument may stand for if it is no full name, each with the name that it may
stand for and the text that is attached to it. -/
def Grammar.candidates (g : Grammar) (argument : Text) : List (OptionSpec × Text × Option Text) :=
  if isLongName argument then
    let (beginning, attached) : Text × Option Text :=
      match Text.splitFirst? '=' argument with
      | none => (argument, none)
      | some (beginning, value) => (beginning, some value)
    (g.names.filter fun (name, _) => Text.startsWith name beginning).map fun (name, o) =>
      (o, name, attached)
  else
    g.names.filterMap fun (name, o) =>
      if name = argument.take 2 then some (o, name, some (argument.drop 2))
      else if Text.startsWith name argument then some (o, name, none)
      else none

/-- How an argument reads before any two dashes; nothing if it is an operand. -/
def Grammar.interpret (g : Grammar) (argument : Text) : Except Exit (Option Reading) :=
  if !Text.startsWith argument "-" then .ok none
  else
    match g.option? argument with
    | some o => .ok (some (.known o (isLongName argument) none))
    | none =>
      if argument.length = 1 then .ok none
      else
        let split := (Text.splitFirst? '=' argument).bind fun (name, value) =>
          (g.option? name).map fun o => Reading.known o (isLongName name) (some value)
        match split with
        | some reading => .ok (some reading)
        | none =>
          match g.candidates argument with
          | [] =>
            if isNegativeNumber argument || argument.contains (.scalar ' ') then .ok none
            else .ok (some .unknown)
          | [(o, name, attached)] => .ok (some (.known o (isLongName name) attached))
          | several => .error (g.refuse ("ambiguous option: " ++ argument ++ " could match " ++
              Text.joinWith ", " (several.map fun (_, name, _) => name)))

/-- The roles of all arguments. -/
def Grammar.roles (g : Grammar) : List Text → Except Exit (List (Text × Role))
  | [] => .ok []
  | argument :: rest =>
    if argument = "--" then .ok ((argument, .separator) :: rest.map fun a => (a, .operand))
    else do
      let role := match ← g.interpret argument with
        | none => Role.operand
        | some reading => Role.option reading
      .ok ((argument, role) :: (← g.roles rest))

/-! ## Taking options -/

/-- What an argument with an option in it amounts to: options with their values, the last one perhaps
still without a value it needs. -/
structure Expansion where
  complete : List (OptionSpec × Option Text)
  pending : Option OptionSpec

/-- Take an attached text apart: it is the value of its option, or the further short names behind a short
switch. -/
def Grammar.expand (g : Grammar) (o : OptionSpec) (isLong : Bool) (attached : Text) :
    Except Exit Expansion :=
  let ignored : Exit := g.refuseOption o ("ignored explicit argument " ++ Text.quoted attached)
  if o.takesValue then .ok ⟨[(o, some attached)], none⟩
  else if isLong then .error ignored
  else
    match attached with
    | [] => .error ignored
    | c :: rest =>
      match g.option? [.scalar '-', c] with
      | none => .error ignored
      | some next =>
        if rest.isEmpty then .ok ⟨[(o, none)], some next⟩
        else do
          let e ← g.expand next false rest
          .ok { e with complete := (o, none) :: e.complete }

/-- The value that a text is to an option of a kind. -/
def valueOf? (kind : OptionKind) (written : Text) : Option Value :=
  if written = "--" then some .nothing
  else
    match kind with
    | .help | .switch => some .on
    | .text => some (.text written)
    | .integer => (IntegerText.read? 10 written).map .integer

/-- The effect of an option on the settings. -/
def Grammar.apply (g : Grammar) (settings : Settings) (o : OptionSpec) (written : Option Text) :
    Except Exit Settings :=
  match o.kind with
  | .help => .error ⟨0, g.help, []⟩
  | .switch => .ok (Assoc.put o.key .on settings)
  | kind =>
    let written := written.getD []
    match valueOf? kind written with
    | some value => .ok (Assoc.put o.key value settings)
    | none => .error (g.refuseOption o ("invalid int value: " ++ Text.quoted written))

/-! ## Taking all arguments -/

/-- What has been read: settings, the command with its arguments, what is left over, and whether the
operand is still to come. -/
structure Parsed where
  settings : Settings
  command : Option (Text × List Text)
  leftOver : List Text
  operandOpen : Bool

/-- Take an option and the value behind it, if it needs one. -/
def Grammar.takeOption (g : Grammar) (s : Parsed) (argument : Text) (reading : Reading)
    (rest : List (Text × Role)) : Except Exit (Parsed × List (Text × Role)) :=
  match reading with
  | .unknown => .ok ({ s with leftOver := s.leftOver ++ [argument] }, rest)
  | .known o isLong attached => do
    let e ← match attached with
      | some attached => g.expand o isLong attached
      | none => .ok ⟨[], some o⟩
    let (complete, rest) ← match e.pending, rest with
      | none, rest => .ok (e.complete, rest)
      | some o, rest =>
        if !o.takesValue then .ok (e.complete ++ [(o, none)], rest)
        else
          match rest with
          | (value, .operand) :: rest => .ok (e.complete ++ [(o, some value)], rest)
          | _ => .error (g.refuseOption o "expected one argument")
    let settings ← complete.foldlM (fun settings (o, value) => g.apply settings o value) s.settings
    .ok ({ s with settings }, rest)

/-- How many arguments the operand takes from the front, separators around it included. -/
def operandLength (operand : Operand) (arguments : List (Text × Role)) : Nat :=
  let isSeparator (a : Text × Role) : Bool := a.2 = .separator
  let leading := (arguments.takeWhile isSeparator).length
  let behind := arguments.dropWhile isSeparator
  match operand, behind with
  | .nothing, _ => 0
  | .optional _, (_, .operand) :: behind => leading + 1 + (behind.takeWhile isSeparator).length
  | .optional _, _ => leading
  | .command .., (_, .operand) :: _ => arguments.length
  | .command .., _ => 0

/-- Take the operand from the front, and say how many arguments that was. -/
def Grammar.takeOperand (g : Grammar) (s : Parsed) (arguments : List (Text × Role)) :
    Except Exit (Parsed × Nat) :=
  if !s.operandOpen then .ok (s, 0)
  else
    let count := operandLength g.operand arguments
    let taken : List Text := (arguments.take count).map (·.1)
    match g.operand with
    | .nothing => .ok (s, 0)
    | .optional key =>
      let settings := match taken.erase ("--" : Text) with
        | [] => s.settings
        | value :: _ => Assoc.put key (.text value) s.settings
      .ok ({ s with settings, operandOpen := false }, count)
    | .command key commands =>
      match taken with
      | [] => .ok (s, 0)
      | command :: rest =>
        if commands.contains command then
          .ok ({ s with command := some (command, rest), operandOpen := false }, count)
        else
          .error (g.refuse ("argument " ++ key ++ ": invalid choice: " ++ Text.quoted command ++
            " (choose from " ++ Text.joinWith ", " (commands.map Text.quoted) ++ ")"))

/-- Take operands and options in turn. The first argument bounds the number of turns. -/
def Grammar.takeAll (g : Grammar) : Nat → Parsed → List (Text × Role) → Except Exit Parsed
  | 0, s, _ => .ok s
  | fuel + 1, s, arguments =>
    match arguments.span fun a => !a.2.isOption with
    | (_, []) => do
      let (s, count) ← g.takeOperand s arguments
      .ok { s with leftOver := s.leftOver ++ (arguments.drop count).map (·.1) }
    | ([], (argument, .option reading) :: rest) => do
      let (s, rest) ← g.takeOption s argument reading rest
      g.takeAll fuel s rest
    | (front, back) => do
      let (s, count) ← g.takeOperand s arguments
      if count = 0 then
        g.takeAll fuel { s with leftOver := s.leftOver ++ front.map (·.1) } back
      else g.takeAll fuel s (arguments.drop count)

/-- Read arguments by a grammar. A command that is missing is a refusal. -/
def Grammar.parse (g : Grammar) (arguments : List Text) : Except Exit Parsed := do
  let roles ← g.roles arguments
  let start : Parsed := ⟨[], none, [], true⟩
  let s ← g.takeAll (2 * arguments.length + 1) start roles
  match g.operand, s.operandOpen with
  | .command key _, true => .error (g.refuse ("the following arguments are required: " ++ key))
  | _, _ => .ok s

end ModuleCatalog.CommandLine
