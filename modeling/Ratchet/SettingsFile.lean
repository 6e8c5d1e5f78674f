import Ratchet.FileTree
import Ratchet.Settings
import Ratchet.Toml.Reader

/-!
# Settings files

A settings file is a TOML document with the tables `convergence` and `regression`. Every table and
key is optional; unknown keys and values that are not numbers make the file unreadable. A table may
also be given as the array of its values in order, of which trailing ones may be missing.

Reading does not check ranges, because values from the command line may still take the place of
those in the file.
-/

namespace Ratchet

open Toml (Item Entries)

/-- A threshold; whole numbers are taken too. -/
def Toml.Item.number? : Item → Option Binary64
  | .integer n => some (.ofInt n)
  | .float x => some x
  | _ => none

/-- A table, or an array in place of one. -/
inductive Toml.Fields where
  | named (entries : Entries)
  | ordered (items : List Item)

def Toml.Item.fields? : Item → Option Toml.Fields
  | .braced es => some (.named es)
  | .table _ es => some (.named es)
  | .array items => some (.ordered items)
  | .tables before last => some (.ordered ((before ++ [last]).map .braced))
  | _ => none

/-- The thresholds of a table with known keys, each with the value it has when left out. -/
def Toml.Fields.numbers? (known : List (String × Binary64)) : Toml.Fields → Option (List Binary64)
  | .named es => do
    guard (es.all fun e => known.any fun k => k.1 == e.1)
    known.mapM fun k =>
      match Entries.get? k.1 es with
      | none => some k.2
      | some item => item.number?
  | .ordered items => do
    let given ← (items.take known.length).mapM Item.number?
    return given ++ (known.drop given.length).map Prod.snd

namespace ConvergenceSettings

def ofFields? (f : Toml.Fields) : Option ConvergenceSettings := do
  let known := [("sigma", default.sigma), ("acceptance", default.acceptance)]
  match ← f.numbers? known with
  | [sigma, acceptance] => return ⟨sigma, acceptance⟩
  | _ => none

end ConvergenceSettings

namespace RegressionSettings

def ofFields? (f : Toml.Fields) : Option RegressionSettings := do
  match ← f.numbers? [("tolerance", default.tolerance)] with
  | [tolerance] => return ⟨tolerance⟩
  | _ => none

end RegressionSettings

namespace Settings

def ofEntries? (es : Entries) : Option Settings := do
  guard (es.all fun e => e.1 == "convergence" || e.1 == "regression")
  let convergence ← match Entries.get? "convergence" es with
    | none => some .default
    | some item => item.fields?.bind ConvergenceSettings.ofFields?
  let regression ← match Entries.get? "regression" es with
    | none => some .default
    | some item => item.fields?.bind RegressionSettings.ofFields?
  return ⟨convergence, regression⟩

def read (content : String) : Except SettingsFlaw Settings :=
  match (Toml.read? content).bind ofEntries? with
  | some s => .ok s
  | none => .error .unreadable

/-- Reads settings and checks their ranges. -/
def readChecked (content : String) : Except SettingsFlaw Settings := do
  let s ← read content
  s.check
  return s

def load (t : FileTree) (path : String) : Except Fault Settings :=
  match t.readText path with
  | .error .notFound => .error (.missingFile path)
  | .error kind => .error (.io kind)
  | .ok content => (read content).mapError SettingsFlaw.fault

/-- Reads a settings file if there is one to read, and takes the defaults otherwise. -/
def loadOrDefault (t : FileTree) : Option String → Except Fault Settings
  | some path => load t path
  | none => .ok default

end Settings

end Ratchet
