import Ratchet.Number.Numeral
import Ratchet.Text.Blank
import Ratchet.Text.Bytes
import Ratchet.Text.Lines
import Ratchet.Fault

/-!
# Observations

A measurement line is `name:value`: exactly one colon, a name that is not empty and holds no tab,
and a finite number with white space allowed around it. One carriage return at the end of the line
is not part of it. `Observation.read` gives the observation, or the first condition in that order
that fails.
-/

namespace Ratchet

structure Observation where
  name : String
  value : Binary64
  deriving DecidableEq

namespace Observation

/-- What is wrong with a measurement line. -/
inductive Flaw where
  | separators
  | emptyName
  | tabInName
  | notANumber
  | notFinite
  deriving DecidableEq, Repr

def Flaw.reason : Flaw → String
  | separators => "expected exactly one ':' separating <name>:<value>"
  | emptyName => "empty metric name"
  | tabInName => "metric name contains a tab"
  | notANumber => "value is not a number"
  | notFinite => "value is not finite"

theorem Flaw.reason_injective {f g : Flaw} (h : f.reason = g.reason) : f = g := by
  cases f <;> cases g <;> simp_all [reason]

def readValue (field : List Char) : Except Flaw Binary64 :=
  match Binary64.read? (Text.trim field) with
  | none => .error .notANumber
  | some x => if x.isFinite then .ok x else .error .notFinite

def read (line : String) : Except Flaw Observation :=
  match Text.pieces ':' (Text.dropEnd '\r' line.toList) with
  | [name, field] =>
    if name = [] then .error .emptyName
    else if '\t' ∈ name then .error .tabInName
    else (readValue field).map fun x => ⟨String.ofList name, x⟩
  | _ => .error .separators

/-- Reads a line that has a number in its stream. -/
def readLine (number : Nat) (line : String) : Except Fault Observation :=
  match read line with
  | .ok o => .ok o
  | .error flaw => .error (.measurement number line flaw.reason)

/-- Reads a line of a byte stream, which has to be UTF-8. -/
def readBytes (number : Nat) (line : Bytes) : Except Fault Observation :=
  match line.toText? with
  | some text => readLine number text
  | none => .error (.io .invalidData)

end Observation

end Ratchet
