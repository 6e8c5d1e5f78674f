import Ratchet.Json.Reader
import Ratchet.Report.Document

/-!
# Reading a baseline from JSON

A baseline document is an object from names to entries; of several entries under one name the last
counts. An entry is an object with the fields `mean` and `stddev`, each exactly once and other
fields ignored, or a list of the two numbers.
-/

namespace Ratchet

open Json (Written)

def Json.Written.number? : Written → Option Binary64
  | .number t => t.value?
  | _ => none

def Json.Written.valuesOf (name : String) (fields : List (Option String × Written)) :
    List Written :=
  (fields.filter fun f => f.1 == some name).map Prod.snd

/-- The number in the only field with a name. -/
def Json.Written.onlyNumber? (name : String) (fields : List (Option String × Written)) :
    Option Binary64 :=
  match Written.valuesOf name fields with
  | [v] => v.number?
  | _ => none

def Entry.ofWritten? : Written → Option Entry
  | .object fields => do
    guard (fields.all fun f => f.1.isSome)
    return ⟨← Written.onlyNumber? "mean" fields, ← Written.onlyNumber? "stddev" fields⟩
  | .list [mean, stddev] => do return ⟨← mean.number?, ← stddev.number?⟩
  | _ => none

def Baseline.ofFields? : List (Option String × Written) → Option (List (String × Entry))
  | [] => some []
  | (name, value) :: rest => do
    return (← name, ← Entry.ofWritten? value) :: (← Baseline.ofFields? rest)

def Baseline.ofJson? (s : String) : Option Baseline :=
  match Written.read? s with
  | some (.object fields) => (Baseline.ofFields? fields).map .ofList
  | _ => none

end Ratchet
