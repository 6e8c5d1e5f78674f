import Ratchet.NameMap
import Ratchet.Notice
import Ratchet.Number.Numeral
import Ratchet.Text.Blank
import Ratchet.Text.Lines
import Ratchet.Fault

/-!
# Baselines

A `Baseline` maps metric names to their accepted mean and standard deviation. Its file has one line
per metric, `name<TAB>mean<TAB>stddev`, without a heading.

* `Baseline.read` accepts any order and repeated names, of which the last line counts; every repeat
  is noticed. The name is taken as it stands, the numbers may have white space around them.
* `Baseline.render` writes the entries in ascending name order, with the fewest digits that read
  back, and refuses a name that would break the lines or fields.
-/

namespace Ratchet

/-- The accepted statistics of one metric. -/
structure Entry where
  mean : Binary64
  stddev : Binary64
  deriving DecidableEq

/-- The accepted statistics of every metric, by name. -/
abbrev Baseline := NameMap Entry

namespace Baseline

/-- What is wrong with a line of a baseline file. -/
inductive Flaw where
  | fieldCount (found : Nat)
  | mean (field : String)
  | stddev (field : String)
  deriving DecidableEq, Repr

def Flaw.reason : Flaw → String
  | fieldCount found => "expected 3 tab-separated fields, found " ++ toString found
  | mean field => "mean " ++ Text.quoted field ++ " is not a number"
  | stddev field => "stddev " ++ Text.quoted field ++ " is not a number"

def readNumber (field : List Char) : Option Binary64 := Binary64.read? (Text.trim field)

def readLine (line : List Char) : Except Flaw (String × Entry) :=
  match Text.pieces '\t' line with
  | [name, mean, stddev] =>
    match readNumber mean, readNumber stddev with
    | none, _ => .error (.mean (String.ofList mean))
    | some _, none => .error (.stddev (String.ofList stddev))
    | some m, some s => .ok (String.ofList name, ⟨m, s⟩)
  | fields => .error (.fieldCount fields.length)

/-- What reading a baseline text gives: the baseline, or the number of the first line that does not
read and what is wrong with it; and the notices up to there. -/
structure Reading where
  outcome : Except (Nat × Flaw) Baseline
  notices : List Notice

/-- Reads lines into a baseline; `read` lines came before them. -/
def readLines (b : Baseline) (read : Nat) : List (List Char) → Reading
  | [] => ⟨.ok b, []⟩
  | line :: rest =>
    match readLine line with
    | .error flaw => ⟨.error (read + 1, flaw), []⟩
    | .ok (name, entry) =>
      let later := readLines (b.insert name entry) (read + 1) rest
      let notices := if (b.get? name).isSome then [.duplicate name (read + 1)] else []
      ⟨later.outcome, notices ++ later.notices⟩

/-- The lines of a baseline text; one more carriage return at the end of a line is dropped. -/
def textLines (content : String) : List (List Char) :=
  (Text.lines '\n' '\r' content.toList).map (Text.dropEnd '\r')

def read (content : String) : Reading := readLines .empty 0 (textLines content)

/-! ## Writing -/

/-- Whether a line can hold a name so that it reads back. -/
def isWritable (name : String) : Bool := !name.toList.any fun c => c == '\t' || c == '\n'

def renderEntry (name : String) (e : Entry) : String :=
  name ++ "\t" ++ e.mean.tagged ++ "\t" ++ e.stddev.tagged ++ "\n"

def renderEntries : List (String × Entry) → Except Fault String
  | [] => .ok ""
  | (name, e) :: rest =>
    if isWritable name then (renderEntries rest).map (renderEntry name e ++ ·)
    else .error (.unwritableName name)

/-- The text of a baseline file, or the first name that no line can hold. -/
def render (b : Baseline) : Except Fault String := renderEntries b.entries

end Baseline

end Ratchet
