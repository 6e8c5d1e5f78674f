import Ratchet.Proofs.AcceptanceRun
import Ratchet.Proofs.ConvergenceRun

/-!
# What code 2 says

Code 2 is the code of measurements that have not converged (`ExitStatus.notConverged`), and a
command line that starts no run ends with the same code. So it has two meanings (`code_two_iff`): the
command line is `Rejected`, by either tool and before anything was read, or a convergence run
`FallsShort`, with the whole stream read and judged. The output tells them apart: a shortfall is
always reported, a rejection never. No other run ends with this code.
-/

namespace Ratchet.Program

open CommandLine (Given)
open Tally (ofObservations)

variable {tool : Tool} {args : List String} {stdin : Bytes} {t : FileTree} {given : Given}
  {short : Shortfall}

/-- The command line is neither a command nor a question for help or the version. -/
def Rejected (tool : Tool) (args : List String) : Prop :=
  ∃ stop, CommandLine.read tool args = .error stop ∧ stop ≠ .help ∧ stop ≠ .version

/-- The command line asks for a convergence run, its settings are in range, every line of the stream
is an observation, and the verdict on them all is this shortfall. -/
structure FallsShort (tool : Tool) (args : List String) (stdin : Bytes) (t : FileTree)
    (given : Given) (short : Shortfall) : Prop where
  command : ∃ output, CommandLine.read tool args = .ok (.converge output, given)
  judged : ∃ settings obs, Measures given t stdin settings obs ∧
    Convergence.evaluate (ofObservations obs) settings.convergence = .ok (.shortfall short)

theorem FallsShort.not_rejected (h : FallsShort tool args stdin t given short) :
    ¬ Rejected tool args := by
  rintro ⟨stop, hstop, -⟩
  obtain ⟨output, hcommand⟩ := h.command
  cases hstop.symm.trans hcommand

theorem FallsShort.tool_eq (h : FallsShort tool args stdin t given short) : tool = .converge := by
  obtain ⟨output, hcommand⟩ := h.command
  cases tool with
  | converge => rfl
  | accept =>
    obtain ⟨_, _, heq⟩ := CommandLine.exists_accept_of_read hcommand
    cases heq

theorem render_shortfall_ne_empty (short : Shortfall) (form : ReportForm) :
    (Convergence.Verdict.shortfall short).render form ≠ "" := by
  cases form with
  | text => simp [Convergence.Verdict.render, Convergence.Verdict.text]
  | json => simp [Convergence.Verdict.render, Json.report]

theorem stopCode_eq_two_iff {stop : CommandLine.Stop} :
    stopCode stop = 2 ↔ stop ≠ .help ∧ stop ≠ .version := by
  cases stop <;> simp [stopCode]

theorem run_of_stop {stop : CommandLine.Stop} (h : CommandLine.read tool args = .error stop)
    (stdin : Bytes) (t : FileTree) : run tool args stdin t = stopped tool stop t := by
  rw [run, h]

theorem ending_of_rejected (h : Rejected tool args) (stdin : Bytes) (t : FileTree) :
    let e := run tool args stdin t
    e.code = 2 ∧ e.stdout = "" ∧ e.tree = t := by
  obtain ⟨stop, hstop, hhelp, hversion⟩ := h
  have htext : stopText tool stop = "" := by
    unfold stopText
    split
    · exact absurd rfl hversion
    · rfl
  rw [run_of_stop hstop]
  exact ⟨stopCode_eq_two_iff.2 ⟨hhelp, hversion⟩, htext, rfl⟩

theorem Ending.Silent.code_ne_two {e : Ending} {status : ExitStatus} (h : e.Silent status t)
    (hstatus : status ≠ .notConverged) : e.code ≠ 2 := fun hcode =>
  hstatus (ExitStatus.code_injective (h.code.symm.trans hcode))

theorem code_accept_ne_two {command : CommandLine.Command}
    (h : CommandLine.read .accept args = .ok (command, given)) (stdin : Bytes) (t : FileTree) :
    (run .accept args stdin t).code ≠ 2 := by
  obtain ⟨reference, checked, rfl⟩ := CommandLine.exists_accept_of_read h
  by_cases hloads : ∃ settings known fresh, Loads given t reference checked settings known fresh
  · obtain ⟨settings, known, fresh, hloads⟩ := hloads
    obtain ⟨report, hreport⟩ := hloads.reached
    have hrun := run_of_reached h stdin ⟨_, _, _, hloads, hreport⟩
    dsimp only at hrun
    split at hrun
    · rw [hrun.1]
      decide
    · split at hrun
      · exact hrun.code_ne_two (by decide)
      · split at hrun
        · exact hrun.code_ne_two (by decide)
        · rw [hrun.1]
          decide
  · exact (run_of_not_loads h stdin hloads).code_ne_two (by decide)

theorem ending_of_fallsShort (h : FallsShort tool args stdin t given short) :
    let e := run tool args stdin t
    e.code = 2 ∧ e.stdout = (Convergence.Verdict.shortfall short).render given.form ∧
      e.tree = t := by
  cases h.tool_eq
  obtain ⟨output, hcommand⟩ := h.command
  obtain ⟨settings, obs, hm, heval⟩ := h.judged
  rw [Convergence.evaluate_eq_ok _ hm.check_ok] at heval
  have hrun := run_of_measures hcommand hm
  rwa [Except.ok.inj heval] at hrun

theorem fallsShort_of_code {command : CommandLine.Command}
    (h : CommandLine.read .converge args = .ok (command, given))
    (hcode : (run .converge args stdin t).code = 2) :
    ∃ short, FallsShort .converge args stdin t given short := by
  obtain ⟨output, rfl⟩ := CommandLine.exists_converge_of_read h
  by_cases hm : ∃ settings obs, Measures given t stdin settings obs
  · obtain ⟨settings, obs, hm⟩ := hm
    have hrun := run_of_measures h hm
    have heval := Convergence.evaluate_eq_ok (ofObservations obs) hm.check_ok
    dsimp only at hrun
    split at hrun
    · next short hjudge => exact ⟨short, ⟨output, h⟩, settings, obs, hm, hjudge ▸ heval⟩
    · exfalso
      split at hrun
      · exact hrun.code_ne_two (by decide) hcode
      · split at hrun
        · exact hrun.code_ne_two (by decide) hcode
        · cases hrun.1.symm.trans hcode
  · exact absurd hcode ((run_of_not_measures h hm).code_ne_two (by decide))

/-- A run ends with code 2 exactly if its command line is rejected or the measurements of a
convergence run, read to the end, have not converged. A rejected command line prints nothing on
standard output, and a shortfall prints its report; neither touches a file. -/
theorem code_two_iff (tool : Tool) (args : List String) (stdin : Bytes) (t : FileTree) :
    let e := run tool args stdin t
    (e.code = 2 ↔
      Rejected tool args ∨ ∃ given short, FallsShort tool args stdin t given short) ∧
    (Rejected tool args → e.stdout = "" ∧ e.tree = t) ∧
    ∀ given short, FallsShort tool args stdin t given short →
      tool = .converge ∧ ¬ Rejected tool args ∧
      e.stdout = (Convergence.Verdict.shortfall short).render given.form ∧ e.stdout ≠ "" ∧
      e.tree = t := by
  intro e
  refine ⟨⟨fun hcode => ?_, ?_⟩, fun h => (ending_of_rejected h stdin t).2,
    fun given short h => ?_⟩
  · cases hread : CommandLine.read tool args with
    | error stop =>
      have hstop : stopCode stop = 2 :=
        (congrArg Ending.code (run_of_stop hread stdin t)).symm.trans hcode
      exact .inl ⟨stop, hread, stopCode_eq_two_iff.1 hstop⟩
    | ok parsed =>
      cases tool with
      | converge => exact .inr ⟨_, fallsShort_of_code hread hcode⟩
      | accept => exact absurd hcode (code_accept_ne_two hread stdin t)
  · rintro (h | ⟨given, short, h⟩)
    · exact (ending_of_rejected h stdin t).1
    · exact (ending_of_fallsShort h).1
  · obtain ⟨-, hout, htree⟩ := ending_of_fallsShort h
    exact ⟨h.tool_eq, h.not_rejected, hout, hout ▸ render_shortfall_ne_empty _ _, htree⟩

/-- Two values outside half a deviation, and a deviation that is no number. -/
theorem code_two_both_ways :
    let t := FileTree.bare ["w"]
    let stdin := Bytes.ofText "a:1\na:2\n"
    let scattered := run .converge ["out.tsv", "--sigma", "0.5"] stdin t
    let rejected := run .converge ["out.tsv", "--sigma", "half"] stdin t
    scattered.code = 2 ∧ scattered.stdout ≠ "" ∧ rejected.code = 2 ∧ rejected.stdout = "" := by
  intro t stdin scattered rejected
  have hrejected : Rejected .converge ["out.tsv", "--sigma", "half"] :=
    ⟨.malformedNumber, rfl, by decide, by decide⟩
  have hcode : scattered.code = 2 := by decide +kernel
  have hread : (CommandLine.read .converge ["out.tsv", "--sigma", "0.5"]).toOption.isSome := by
    decide +kernel
  obtain ⟨hiff, -, hshort⟩ := code_two_iff .converge ["out.tsv", "--sigma", "0.5"] stdin t
  obtain ⟨hiff', hsilent, -⟩ := code_two_iff .converge ["out.tsv", "--sigma", "half"] stdin t
  refine ⟨hcode, ?_, hiff'.2 (.inl hrejected), (hsilent hrejected).1⟩
  rcases hiff.1 hcode with ⟨stop, hstop, -⟩ | ⟨given, short, h⟩
  · rw [hstop] at hread
    cases hread
  · exact (hshort given short h).2.2.2.1

/-- Each tool ends with code 2 without a measurement being read. -/
theorem code_two_of_missing_operand_or_number :
    let t := FileTree.bare ["w"]
    (run .accept ["known.tsv"] [] t).code = 2 ∧
    (run .converge ["out.tsv", "--sigma", "half"] [] t).code = 2 ∧
    ¬ ∃ given short, FallsShort .converge ["out.tsv", "--sigma", "half"] [] t given short := by
  intro t
  have hrejected : Rejected .converge ["out.tsv", "--sigma", "half"] :=
    ⟨.malformedNumber, rfl, by decide, by decide⟩
  refine ⟨by decide +kernel, by decide +kernel, ?_⟩
  rintro ⟨given, short, h⟩
  exact h.not_rejected hrejected

end Ratchet.Program
