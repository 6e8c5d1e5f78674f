import Ratchet.Json.Writer
import Ratchet.Report.Text

/-!
# Reports for machines

Every report as a JSON document, and the choice between the two forms of a report. A document names
the same facts as the text and holds all of them: a report can be told from its document as long as
its numbers are finite.
-/

namespace Ratchet

def Entry.json (e : Entry) : Json := .object [("mean", .number e.mean), ("stddev", .number e.stddev)]

def Baseline.json (b : Baseline) : Json := .object (b.entries.map fun e => (e.1, e.2.json))

def RegressionSettings.json (s : RegressionSettings) : Json :=
  .object [("tolerance", .number s.tolerance)]

def ConvergenceSettings.json (s : ConvergenceSettings) : Json :=
  .object [("sigma", .number s.sigma), ("acceptance", .number s.acceptance)]

def Settings.json (s : Settings) : Json :=
  .object [("convergence", s.convergence.json), ("regression", s.regression.json)]

def Shortfall.json (s : Shortfall) : Json :=
  .object [("name", .text s.name), ("retained", .count s.retained), ("total", .count s.total),
    ("retained_percent", .number s.percent)]

def Convergence.Verdict.json : Convergence.Verdict → Json
  | .converged baseline => .object [("status", .text "converged"), ("detail", baseline.json)]
  | .shortfall s => .object [("status", .text "not_converged"), ("detail", s.json)]

namespace Regression

def Verdict.name : Verdict → String
  | .adopted => "adopted"
  | .improved _ => "improved"
  | .tolerated _ => "within_tolerance"
  | .regressed _ => "regressed"

/-- The fields of a verdict, which stand among those of its check. -/
def Verdict.fields (v : Verdict) : List (String × Json) :=
  ("verdict", .text v.name) ::
    match v with
    | .adopted => []
    | .improved previous => [("previous", previous.json)]
    | .tolerated reference => [("reference", reference.json)]
    | .regressed reference => [("reference", reference.json)]

def Check.json (c : Check) : Json :=
  .object (("name", .text c.name) :: ("checked", c.checked.json) :: c.verdict.fields)

def Report.json (r : Report) : Json :=
  .object [("checks", .list (r.checks.map Check.json)), ("skipped", .count r.skipped),
    ("baseline", r.baseline.json), ("config", r.settings.json)]

end Regression

inductive ReportForm where
  | text
  | json
  deriving DecidableEq, Repr

def ReportForm.name : ReportForm → String
  | text => "text"
  | json => "json"

def Json.report (j : Json) : String := j.pretty ++ "\n"

def Convergence.Verdict.render (v : Convergence.Verdict) : ReportForm → String
  | .text => v.text
  | .json => v.json.report

def Regression.Report.render (r : Regression.Report) : ReportForm → String
  | .text => r.text
  | .json => r.json.report

end Ratchet
