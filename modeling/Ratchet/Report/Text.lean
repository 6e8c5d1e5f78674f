import Ratchet.Convergence
import Ratchet.Regression

/-!
# Reports for people

One line per metric and a closing line with the outcome.
-/

namespace Ratchet

def Baseline.entryLine (name : String) (e : Entry) : String :=
  "  " ++ name ++ " mean=" ++ e.mean.plain ++ " stddev=" ++ e.stddev.plain ++ "\n"

namespace Convergence

def Verdict.text : Verdict → String
  | .converged baseline =>
    "✅ All " ++ toString baseline.size ++ " metric(s) converged\n" ++
      String.join (baseline.entries.map fun e => Baseline.entryLine e.1 e.2)
  | .shortfall s =>
    s.name ++ " has not reached convergence. Only " ++ toString s.retained ++
      " samples were valid over " ++ toString s.total ++ " [" ++ s.percent.fixed 2 ++ "%]\n"

end Convergence

namespace Regression

def Check.line (c : Check) : String :=
  "Metric " ++ c.name ++
    match c.verdict with
    | .adopted =>
      " adopted as new baseline: " ++ c.checked.mean.plain ++
        " (stddev " ++ c.checked.stddev.plain ++ ")\n"
    | .improved previous =>
      " improved from " ++ previous.mean.plain ++ " to " ++ c.checked.mean.plain ++
        "; baseline updated\n"
    | .tolerated reference =>
      " is ok; value is " ++ c.checked.mean.plain ++ " against reference " ++
        reference.mean.plain ++ " with sigma " ++ reference.stddev.plain ++ "\n"
    | .regressed reference =>
      " has worsened from " ++ reference.mean.plain ++ " to " ++ c.checked.mean.plain ++
        " when stddev was " ++ reference.stddev.plain ++ "\n"

def Report.closing (r : Report) : String :=
  if r.isRegression then
    "❌ Performance test failed.\n" ++
      (if r.skipped = 0 then "" else toString r.skipped ++ " remaining metric(s) not checked\n")
  else
    "✅ NO REGRESSION DETECTED (" ++ toString r.checks.length ++ " checked, " ++
      toString r.ratcheted ++ " baseline entries updated)\n"

def Report.text (r : Report) : String := String.join (r.checks.map Check.line) ++ r.closing

end Regression

end Ratchet
