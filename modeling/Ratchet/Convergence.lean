import Ratchet.Baseline
import Ratchet.Settings
import Ratchet.Tally

/-!
# The convergence gate

A metric has converged when enough of its samples lie inside a band around their mean: strictly
less than `sigma` population standard deviations away. Metrics are judged in name order and the
first that falls short ends the judgement; if none does, every metric's mean and standard deviation
make up a baseline.
-/

namespace Ratchet

/-- How many samples lie inside the band. Samples without spread are all retained: their band has
no width, and no value would lie strictly inside. -/
def Samples.retained (s : Samples) (sigma : Binary64) : Nat :=
  if s.moments.spread.isZero then s.moments.count
  else
    let band := sigma * s.moments.stddev
    s.values.countP fun v => (v - s.moments.mean).abs.lt band

def Samples.entry (s : Samples) : Entry := ⟨s.moments.mean, s.moments.stddev⟩

/-- Whether a fraction of retained samples is enough; of no samples at all it always is. -/
def meetsAcceptance (retained total : Nat) (acceptance : Binary64) : Bool :=
  if total = 0 then true else acceptance.le (.ofNat retained / .ofNat total)

structure Shortfall where
  name : String
  retained : Nat
  total : Nat
  deriving DecidableEq, Repr

/-- The retained share in percent. -/
def Shortfall.percent (s : Shortfall) : Binary64 :=
  .ofNat s.retained / .ofNat s.total * .ofNat 100

namespace Convergence

inductive Verdict where
  | converged (baseline : Baseline)
  | shortfall (shortfall : Shortfall)

def Verdict.isConverged : Verdict → Bool
  | converged _ => true
  | shortfall _ => false

def Verdict.status : Verdict → ExitStatus
  | converged _ => .success
  | shortfall _ => .notConverged

def shortfall? (settings : ConvergenceSettings) (name : String) (s : Samples) : Option Shortfall :=
  let retained := s.retained settings.sigma
  let total := s.moments.count
  if meetsAcceptance retained total settings.acceptance then none
  else some ⟨name, retained, total⟩

/-- Judges metrics in order, collecting the entries of those that have converged. -/
def judge (settings : ConvergenceSettings) (b : Baseline) : List (String × Samples) → Verdict
  | [] => .converged b
  | (name, s) :: rest =>
    match shortfall? settings name s with
    | some short => .shortfall short
    | none => judge settings (b.insert name s.entry) rest

def evaluate (t : Tally) (settings : ConvergenceSettings) : Except SettingsFlaw Verdict := do
  settings.check
  return judge settings .empty t.entries

end Convergence

end Ratchet
