import Ratchet.BaselineFile
import Ratchet.Convergence
import Ratchet.Regression

/-!
# Runs of the gates

`Gate.converge` tallies a stream and writes a baseline once every metric has converged.
`Gate.accept` checks one baseline file against another and, unless a metric regressed, replaces the
reference. Both read all their input before they decide, write at most one file, as the last thing
they do, and never write a baseline without entries.
-/

namespace Ratchet.Gate

/-- What a run gives: a verdict or a fault, the notices on the way, and the tree it leaves. -/
structure Run (α : Type) where
  outcome : Except Fault α
  notices : List Notice
  tree : FileTree

def measure (stream : Bytes) (settings : ConvergenceSettings) :
    Except Fault Convergence.Verdict :=
  let (tally, reading) := Tally.readStream .empty stream
  match reading with
  | .error fault => .error fault
  | .ok _ => (Convergence.evaluate tally settings).mapError SettingsFlaw.fault

/-- Writes a baseline that is not empty, and gives `verdict` if that succeeds. -/
def write {α : Type} (verdict : α) (b : Baseline) (notices : List Notice) (t : FileTree)
    (path : String) : Run α :=
  if b.isEmpty then ⟨.error (.emptyBaseline path), notices, t⟩
  else
    match b.save t path with
    | .error fault => ⟨.error fault, notices, t⟩
    | .ok t => ⟨.ok verdict, notices ++ [b.savedNotice path], t⟩

def converge (t : FileTree) (stream : Bytes) (output : String) (settings : ConvergenceSettings) :
    Run Convergence.Verdict :=
  match measure stream settings with
  | .error fault => ⟨.error fault, [], t⟩
  | .ok (.converged b) => write (.converged b) b [] t output
  | .ok (.shortfall s) => ⟨.ok (.shortfall s), [.untouched s.name output], t⟩

def accept (t : FileTree) (reference checked : String) (settings : RegressionSettings) :
    Run Regression.Report :=
  let known := Baseline.load t reference
  match known.outcome with
  | .error fault => ⟨.error fault, known.notices, t⟩
  | .ok knownBaseline =>
    let fresh := Baseline.load t checked
    let notices := known.notices ++ fresh.notices
    match fresh.outcome with
    | .error fault => ⟨.error fault, notices, t⟩
    | .ok freshBaseline =>
      match Regression.check knownBaseline freshBaseline settings with
      | .error flaw => ⟨.error flaw.fault, notices, t⟩
      | .ok report =>
        let notices := notices ++ report.notices
        if report.isRegression then ⟨.ok report, notices, t⟩
        else write report report.baseline notices t reference

end Ratchet.Gate
