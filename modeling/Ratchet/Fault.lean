import Ratchet.Text.Quoted

/-!
# Faults and exit statuses

A `Fault` is what ends a run without a verdict: input that does not read, a file that is missing,
a baseline that must not be written, settings out of range, or a failing file operation. A
`Failure` is a fault, or a bare text, together with the contexts a run adds on the way out, the
outermost first.

That measurements have not converged, or that a metric has regressed, is a verdict and no fault.
-/

namespace Ratchet

inductive IoKind where
  | notFound
  | isADirectory
  | notADirectory
  /-- A content that is not text. -/
  | invalidData
  /-- A path that holds a zero character. -/
  | invalidInput
  /-- A name or a path that is too long. -/
  | invalidName
  /-- A path that ends in a dot name, where a file was to be put. -/
  | resourceBusy
  deriving DecidableEq, Repr

namespace IoKind

def name : IoKind → String
  | notFound => "NotFound"
  | isADirectory => "IsADirectory"
  | notADirectory => "NotADirectory"
  | invalidData => "InvalidData"
  | invalidInput => "InvalidInput"
  | invalidName => "InvalidFilename"
  | resourceBusy => "ResourceBusy"

end IoKind

/-- What ends a run without a verdict. -/
inductive Fault where
  /-- A measurement line, shown as it stood in the stream. -/
  | measurement (line : Nat) (content reason : String)
  /-- A line of a baseline file. -/
  | baseline (path : String) (line : Nat) (reason : String)
  /-- A file that has to exist. -/
  | missingFile (path : String)
  /-- A baseline without entries, which is never written. -/
  | emptyBaseline (path : String)
  /-- A metric name that a baseline file could not hold. -/
  | unwritableName (name : String)
  /-- Settings that do not read, or are out of range. -/
  | settings (reason : String)
  /-- Any other failure of a file operation; the system's own wording is not part of it. -/
  | io (kind : IoKind)
  deriving DecidableEq, Repr

namespace Fault

def message : Fault → String
  | measurement line content reason =>
    "Malformed measurement on line " ++ toString line ++ ": " ++ reason ++
      " (" ++ Text.quoted content ++ ")"
  | baseline path line reason =>
    "Malformed baseline " ++ path ++ " line " ++ toString line ++ ": " ++ reason
  | missingFile path => "Baseline file not found: " ++ path
  | emptyBaseline path => "Refusing to persist an empty baseline to " ++ path
  | unwritableName name =>
    "Metric name " ++ Text.quoted name ++ " cannot be written to a baseline file"
  | settings reason => "Invalid configuration: " ++ reason
  | io _ => "IO error"

end Fault

/-! ## Exit statuses -/

/-- How a run ends, one convention for both tools. -/
inductive ExitStatus where
  | success
  | fatal
  | notConverged
  | regressionDetected
  | emptyBaseline
  deriving DecidableEq, Repr

namespace ExitStatus

def code : ExitStatus → Nat
  | success => 0
  | fatal => 1
  | notConverged => 2
  | regressionDetected => 3
  | emptyBaseline => 4

theorem code_injective {s t : ExitStatus} (h : s.code = t.code) : s = t := by
  cases s <;> cases t <;> simp_all [code]

end ExitStatus

inductive Cause where
  | fault (fault : Fault)
  /-- A bare text, whose meaning no status depends on. -/
  | text (message : String)
  deriving DecidableEq, Repr

def Cause.message : Cause → String
  | fault f => f.message
  | text m => m

/-- A cause within contexts, the outermost first. -/
structure Failure where
  contexts : List String
  cause : Cause
  deriving DecidableEq, Repr

namespace Failure

def within (context : String) (f : Failure) : Failure := { f with contexts := context :: f.contexts }

def messages (f : Failure) : List String := f.contexts ++ [f.cause.message]

def message (f : Failure) : String := f.messages.headD ""

def chain (f : Failure) : String := ": ".intercalate f.messages

/-- A refused empty baseline has a status of its own, whatever contexts surround it. -/
def status (f : Failure) : ExitStatus :=
  match f.cause with
  | .fault (.emptyBaseline _) => .emptyBaseline
  | _ => .fatal

end Failure

end Ratchet
