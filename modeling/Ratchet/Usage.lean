import Ratchet.CommandLine

/-!
# Usage

What a tool says about its arguments, and about a command line that starts no run.
-/

namespace Ratchet

namespace Tool

def synopsis : Tool → String
  | converge => "perf-converge [OPTIONS] OUTPUT"
  | accept => "perf-accept [OPTIONS] REFERENCE CHECKED"

def purpose : Tool → List String
  | converge =>
    ["Reads name:value measurements from standard input and writes their mean and",
      "standard deviation to OUTPUT once every metric has converged."]
  | accept =>
    ["Checks the baseline CHECKED against REFERENCE, and takes its improvements over",
      "into REFERENCE unless a metric regressed."]

def options : Tool → List String
  | converge =>
    ["  --sigma NUMBER       keep samples within so many standard deviations (3)",
      "  --acceptance NUMBER  the least share of samples to keep (0.95)"]
  | accept => ["  --tolerance NUMBER   allow so many standard deviations (3)"]

def usage (tool : Tool) : String :=
  "\n".intercalate <|
    ["Usage: " ++ tool.synopsis, ""] ++ tool.purpose ++ ["", "Options:"] ++ tool.options ++
      ["  --config FILE        read the thresholds from a file",
        "  --format FORMAT      text (the default) or json",
        "  --debug              show notices on standard error",
        "  -h, --help           show this text",
        "  -V, --version        show the version", ""]

end Tool

/-- What went wrong with a command line, if anything did. -/
def CommandLine.Stop.complaint? : CommandLine.Stop → Option String
  | .unknownArgument => some "an argument is not known"
  | .missingOperand => some "an operand is missing"
  | .invalidValue => some "a value is missing or not allowed"
  | .malformedNumber => some "a value is not a number"
  | .repeated => some "an option is given twice"
  | .surplusValue => some "a flag takes no value"
  | .help | .version => none

end Ratchet
