import Ratchet.CommandLine
import Ratchet.Gate

/-!
# The two programs

A program takes its arguments, its standard input and the tree it runs in, and gives the exit code,
what it prints, and the tree it leaves. Reports go to standard output and a failure to standard
error; where the system or the reader of settings files has more to say about a failure, the
diagnostic stops before their words.

A command line that starts no run ends with code 2, or with 0 where it asked for help or for the
version.
-/

namespace Ratchet

/-- Whether wording from outside follows the message of a fault. -/
def Fault.isOpen : Fault → Bool
  | .io _ => true
  | .settings reason => reason == SettingsFlaw.unreadable.reason
  | _ => false

/-- What a program prints about a failure. -/
def Failure.diagnostic (f : Failure) : String :=
  "Error: " ++ f.chain ++
    match f.cause with
    | .fault fault => if fault.isOpen then "" else "\n"
    | .text _ => "\n"

namespace Program

structure Ending where
  code : Nat
  stdout : String
  stderr : String
  notices : List Notice
  tree : FileTree

def stopCode : CommandLine.Stop → Nat
  | .help | .version => 0
  | _ => 2

/-- What a program prints instead of running; help is left to the outer layer. -/
def stopText (tool : Tool) : CommandLine.Stop → String
  | .version => tool.name ++ " " ++ Tool.version ++ "\n"
  | _ => ""

def stopped (tool : Tool) (stop : CommandLine.Stop) (t : FileTree) : Ending :=
  ⟨stopCode stop, stopText tool stop, "", [], t⟩

def failed (f : Failure) (notices : List Notice) (t : FileTree) : Ending :=
  ⟨f.status.code, "", f.diagnostic, notices, t⟩

def settingsContext : String := "Failed to load configuration"

/-- Ends a run: with its report, or with its fault in a context. -/
def finish {α : Type} (status : α → ExitStatus) (render : α → String) (context : String)
    (run : Gate.Run α) : Ending :=
  match run.outcome with
  | .ok verdict => ⟨(status verdict).code, render verdict, "", run.notices, run.tree⟩
  | .error fault => failed ⟨[context], .fault fault⟩ run.notices run.tree

/-- Carries out a command whose settings are in range. -/
def carryOut (command : CommandLine.Command) (form : ReportForm) (settings : Settings)
    (stdin : Bytes) (t : FileTree) : Ending :=
  match command with
  | .converge output =>
    finish Convergence.Verdict.status (·.render form)
      ("Convergence run for " ++ output ++ " failed")
      (Gate.converge t stdin output settings.convergence)
  | .accept reference checked =>
    finish Regression.Report.status (·.render form)
      ("Acceptance check of " ++ checked ++ " against " ++ reference ++ " failed")
      (Gate.accept t reference checked settings.regression)

def run (tool : Tool) (args : List String) (stdin : Bytes) (t : FileTree) : Ending :=
  match CommandLine.read tool args with
  | .error stop => stopped tool stop t
  | .ok (command, given) =>
    match given.settings t with
    | .error fault => failed ⟨[settingsContext], .fault fault⟩ [] t
    | .ok settings => carryOut command given.form settings stdin t

end Program

end Ratchet
