import Ratchet.Report.Document
import Ratchet.SettingsFile

/-!
# Command lines

The arguments of the two tools: operands, options with a value (`--name value` or `--name=value`)
and flags, in any order; after `--` everything is an operand. A value or operand apart from its
option does not start with a dash, unless it is a dash alone.

An option and its value are held back until the next argument is recognised, and are checked only
then. So an argument that no tool knows is reported before a bad value in front of it, and a bad
value before the arguments after it are looked at for theirs. That an operand is missing is found
last.
-/

namespace Ratchet

inductive Tool where
  | converge
  | accept
  deriving DecidableEq, Repr

namespace Tool

def name : Tool → String
  | converge => "perf-converge"
  | accept => "perf-accept"

def version : String := "0.1.0"

/-- How many operands a tool takes; it needs them all. -/
def operands : Tool → Nat
  | converge => 1
  | accept => 2

end Tool

namespace CommandLine

/-- Why a command line starts no run. -/
inductive Stop where
  | unknownArgument
  | missingOperand
  /-- No value, an empty path, or no known report form. -/
  | invalidValue
  | malformedNumber
  | repeated
  /-- A value for a flag. -/
  | surplusValue
  | help
  | version
  deriving DecidableEq, Repr

/-- What an argument can set. -/
inductive Parameter where
  | operand
  | config
  | sigma
  | acceptance
  | tolerance
  | format
  | debug
  deriving DecidableEq, Repr

inductive LongName where
  | valued (p : Parameter)
  | debug
  | help
  | version
  deriving DecidableEq, Repr

def longName? (tool : Tool) (name : String) : Option LongName :=
  if name = "config" then some (.valued .config)
  else if name = "format" then some (.valued .format)
  else if name = "debug" then some .debug
  else if name = "help" then some .help
  else if name = "version" then some .version
  else
    match tool with
    | .converge =>
      if name = "sigma" then some (.valued .sigma)
      else if name = "acceptance" then some (.valued .acceptance)
      else none
    | .accept => if name = "tolerance" then some (.valued .tolerance) else none

structure Given where
  operands : List String
  config : Option String
  sigma : Option Binary64
  acceptance : Option Binary64
  tolerance : Option Binary64
  format : Option ReportForm
  debug : Bool
  deriving DecidableEq

def Given.empty : Given := ⟨[], none, none, none, none, none, false⟩

def readPath (s : String) : Except Stop String := if s.isEmpty then .error .invalidValue else .ok s

def readNumber (s : String) : Except Stop Binary64 :=
  match Binary64.read? s.toList with
  | some x => .ok x
  | none => .error .malformedNumber

def readForm (s : String) : Except Stop ReportForm :=
  if s = ReportForm.text.name then .ok .text
  else if s = ReportForm.json.name then .ok .json
  else .error .invalidValue

/-- The value of an option that may be given once. -/
def once {α : Type} (read : String → Except Stop α) (before : Option α) (value : String) :
    Except Stop (Option α) :=
  match before with
  | some _ => .error .repeated
  | none => (read value).map some

def Given.put (g : Given) (p : Parameter) (value : String) : Except Stop Given :=
  match p with
  | .operand => do return { g with operands := g.operands ++ [← readPath value] }
  | .config => do return { g with config := ← once readPath g.config value }
  | .sigma => do return { g with sigma := ← once readNumber g.sigma value }
  | .acceptance => do return { g with acceptance := ← once readNumber g.acceptance value }
  | .tolerance => do return { g with tolerance := ← once readNumber g.tolerance value }
  | .format => do return { g with format := ← once readForm g.format value }
  | .debug => if g.debug then .error .repeated else .ok { g with debug := true }

/-! ## Arguments -/

/-- A parameter held back until the next argument is recognised, with its value once that came. -/
structure Held where
  parameter : Parameter
  value : Option String

structure State where
  given : Given
  held : Option Held
  /-- After `--`. -/
  operandsOnly : Bool

def State.start : State := ⟨.empty, none, false⟩

/-- Sets the parameter that was held back; without a value it is an error. -/
def State.settle (s : State) : Except Stop Given :=
  match s.held with
  | none => .ok s.given
  | some ⟨p, some value⟩ => s.given.put p value
  | some ⟨_, none⟩ => .error .invalidValue

def State.operandCount (s : State) : Nat :=
  s.given.operands.length +
    match s.held with
    | some ⟨.operand, _⟩ => 1
    | _ => 0

def readOperand (tool : Tool) (s : State) (arg : String) : Except Stop State :=
  if s.operandCount < tool.operands then do
    return { s with given := ← s.settle, held := some ⟨.operand, some arg⟩ }
  else .error .unknownArgument

def readLong (tool : Tool) (s : State) (name : String) (attached : Option String) :
    Except Stop State :=
  match longName? tool name, attached with
  | none, _ => .error .unknownArgument
  | some (.valued p), some value => do
    return { s with given := ← (← s.settle).put p value, held := none }
  | some (.valued p), none => do return { s with given := ← s.settle, held := some ⟨p, none⟩ }
  | some _, some _ => .error .surplusValue
  | some .debug, none => do return { s with given := ← (← s.settle).put .debug "", held := none }
  | some .help, none => do
    let _ ← s.settle
    .error .help
  | some .version, none => do
    let _ ← s.settle
    .error .version

def readShort (s : State) (letter : Char) : Except Stop State :=
  if letter = 'h' then do
    let _ ← s.settle
    .error .help
  else if letter = 'V' then do
    let _ ← s.settle
    .error .version
  else .error .unknownArgument

/-- The name of a long argument and the value after an equals sign. -/
def splitLong (body : List Char) : String × Option String :=
  match body.dropWhile (· ≠ '=') with
  | [] => (String.ofList body, none)
  | _ :: value => (String.ofList (body.takeWhile (· ≠ '=')), some (String.ofList value))

def readArgument (tool : Tool) (s : State) (arg : String) : Except Stop State :=
  if s.operandsOnly then readOperand tool s arg
  else
    match arg.toList with
    | ['-', '-'] => .ok { s with operandsOnly := true }
    | '-' :: '-' :: body =>
      let (name, attached) := splitLong body
      readLong tool s name attached
    | '-' :: letter :: _ => readShort s letter
    | _ =>
      match s.held with
      | some ⟨p, none⟩ => .ok { s with held := some ⟨p, some arg⟩ }
      | _ => readOperand tool s arg

def readArguments (tool : Tool) : State → List String → Except Stop State
  | s, [] => .ok s
  | s, arg :: rest =>
    match readArgument tool s arg with
    | .ok s => readArguments tool s rest
    | .error stop => .error stop

inductive Command where
  | converge (output : String)
  | accept (reference checked : String)
  deriving DecidableEq, Repr

def Command.ofOperands? : Tool → List String → Option Command
  | .converge, [output] => some (.converge output)
  | .accept, [reference, checked] => some (.accept reference checked)
  | _, _ => none

/-- The command of a tool, which needs all its operands, and everything that its arguments set. -/
def read (tool : Tool) (args : List String) : Except Stop (Command × Given) := do
  let given ← (← readArguments tool .start args).settle
  match Command.ofOperands? tool given.operands with
  | some command => return (command, given)
  | none => .error .missingOperand

/-! ## Settings -/

/-- Settings with the given options in place of what a file or the defaults say. -/
def Given.override (g : Given) (s : Settings) : Settings :=
  ⟨⟨g.sigma.getD s.convergence.sigma, g.acceptance.getD s.convergence.acceptance⟩,
    ⟨g.tolerance.getD s.regression.tolerance⟩⟩

/-- The settings of a run. Their ranges are checked once everything is in its place. -/
def Given.settings (g : Given) (t : FileTree) : Except Fault Settings := do
  let s := g.override (← Settings.loadOrDefault t g.config)
  s.check.mapError SettingsFlaw.fault
  return s

def Given.form (g : Given) : ReportForm := g.format.getD .text

end CommandLine

end Ratchet
