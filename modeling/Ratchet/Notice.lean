import Ratchet.Number.Layout

/-!
# Notices

What a run reports beside its verdict: repeated names in a baseline file, a regression, files
written and files left alone.
-/

namespace Ratchet

inductive Notice where
  /-- A baseline line whose name an earlier line has. -/
  | duplicate (name : String) (line : Nat)
  /-- A metric that got worse beyond tolerance. -/
  | regressed (name : String) (reference checked stddev : Binary64)
  /-- A baseline file was written. -/
  | wrote (entries : Nat) (path : String)
  /-- A baseline file was left alone since a metric has not converged. -/
  | untouched (name path : String)
  deriving DecidableEq

namespace Notice

inductive Level where
  | warn
  | info
  deriving DecidableEq, Repr

def Level.name : Level → String
  | warn => "WARN"
  | info => "INFO"

def level : Notice → Level
  | duplicate .. => .warn
  | regressed .. => .warn
  | wrote .. => .info
  | untouched .. => .info

def message : Notice → String
  | duplicate name line =>
    "Duplicate baseline metric '" ++ name ++ "' on line " ++ toString line ++
      "; keeping the later entry"
  | regressed name reference checked stddev =>
    "Metric " ++ name ++ " regressed: " ++ reference.plain ++ " -> " ++ checked.plain ++
      " (stddev " ++ stddev.plain ++ ")"
  | wrote entries path => "Wrote " ++ toString entries ++ " baseline entries to " ++ path
  | untouched name path => "Metric " ++ name ++ " not converged; " ++ path ++ " left untouched"

def text (n : Notice) : String := n.level.name ++ " " ++ n.message

end Notice

end Ratchet
