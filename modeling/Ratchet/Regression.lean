import Ratchet.Baseline
import Ratchet.Settings

/-!
# The regression gate

Lower is better. A checked metric is judged against its reference entry: a metric without one is
adopted, a lower mean is an improvement, and a mean that rose by more than `tolerance` reference
standard deviations is a regression; anything else is tolerated. Adoptions and improvements replace
the reference entry, so that a tolerated slowdown never moves the reference.

Metrics are checked in name order and the first regression ends the check.
-/

namespace Ratchet.Regression

inductive Verdict where
  | adopted
  | improved (previous : Entry)
  | tolerated (reference : Entry)
  | regressed (reference : Entry)
  deriving DecidableEq

namespace Verdict

/-- Whether the checked entry becomes the reference. -/
def replaces : Verdict → Bool
  | adopted | improved _ => true
  | _ => false

def isRegression : Verdict → Bool
  | regressed _ => true
  | _ => false

/-- The reference entry a metric was judged against. -/
def against? : Verdict → Option Entry
  | adopted => none
  | improved e | tolerated e | regressed e => some e

end Verdict

/-- Whether a mean rose beyond tolerance. -/
def exceeds (settings : RegressionSettings) (reference checked : Entry) : Bool :=
  (settings.tolerance * reference.stddev).lt (checked.mean - reference.mean)

def judge (settings : RegressionSettings) (reference? : Option Entry) (checked : Entry) : Verdict :=
  match reference? with
  | none => .adopted
  | some reference =>
    if checked.mean.lt reference.mean then .improved reference
    else if exceeds settings reference checked then .regressed reference
    else .tolerated reference

structure Check where
  name : String
  checked : Entry
  verdict : Verdict
  deriving DecidableEq

structure Report where
  /-- In name order, up to and including a regression. -/
  checks : List Check
  /-- How many metrics a regression left unchecked. -/
  skipped : Nat
  /-- The reference with every adoption and improvement. -/
  baseline : Baseline
  settings : RegressionSettings
  deriving DecidableEq

namespace Report

def regression? (r : Report) : Option Check := r.checks.find? (·.verdict.isRegression)

def isRegression (r : Report) : Bool := r.regression?.isSome

/-- How many reference entries were replaced. -/
def ratcheted (r : Report) : Nat := r.checks.countP (·.verdict.replaces)

def status (r : Report) : ExitStatus := if r.isRegression then .regressionDetected else .success

/-- What a check says beside its report. -/
def notices (r : Report) : List Notice :=
  r.checks.filterMap fun c =>
    match c.verdict with
    | .regressed reference =>
      some (.regressed c.name reference.mean c.checked.mean reference.stddev)
    | _ => none

end Report

/-- Checks metrics in order, each against the reference as the checks before it left it. -/
def walk (settings : RegressionSettings) (reference : Baseline) :
    List (String × Entry) → List Check × Nat × Baseline
  | [] => ([], 0, reference)
  | (name, checked) :: rest =>
    let verdict := judge settings (reference.get? name) checked
    let check : Check := ⟨name, checked, verdict⟩
    if verdict.isRegression then ([check], rest.length, reference)
    else
      let next := if verdict.replaces then reference.insert name checked else reference
      let (checks, skipped, final) := walk settings next rest
      (check :: checks, skipped, final)

def check (reference checked : Baseline) (settings : RegressionSettings) :
    Except SettingsFlaw Report := do
  settings.check
  let (checks, skipped, baseline) := walk settings reference checked.entries
  return ⟨checks, skipped, baseline, settings⟩

end Ratchet.Regression
