import Ratchet.Proofs.Fault
import Ratchet.Proofs.FileTree
import Ratchet.Proofs.Regression

/-!
# How an acceptance run ends

`Reached` says that a run got as far as a report: its settings are in range, both baselines load and
one was checked against the other. A run that does not get there ends silently with code 1
(`run_of_not_loads`); one that does ends by what the report says, and by whether the new baseline
can be saved (`run_of_reached`).
-/

namespace Ratchet.Program

open CommandLine (Given)

variable {given : Given} {t : FileTree} {reference checked : String} {settings : Settings}
  {known fresh : Baseline} {report : Regression.Report}

/-- The settings are in range, and both baselines load. -/
structure Loads (given : Given) (t : FileTree) (reference checked : String) (settings : Settings)
    (known fresh : Baseline) : Prop where
  settings : given.settings t = .ok settings
  known : (Baseline.load t reference).outcome = .ok known
  fresh : (Baseline.load t checked).outcome = .ok fresh

/-- An acceptance run gets as far as a report. -/
def Reached (given : Given) (t : FileTree) (reference checked : String)
    (report : Regression.Report) : Prop :=
  ∃ settings known fresh, Loads given t reference checked settings known fresh ∧
    Regression.check known fresh settings.regression = .ok report

theorem Loads.unique (h : Loads given t reference checked settings known fresh)
    {settings' : Settings} {known' fresh' : Baseline}
    (h' : Loads given t reference checked settings' known' fresh') :
    settings' = settings ∧ known' = known ∧ fresh' = fresh := by
  obtain ⟨hs, hk, hf⟩ := h
  obtain ⟨hs', hk', hf'⟩ := h'
  cases hs.symm.trans hs'
  cases hk.symm.trans hk'
  cases hf.symm.trans hf'
  exact ⟨rfl, rfl, rfl⟩

theorem Loads.reached (h : Loads given t reference checked settings known fresh) :
    ∃ report, Regression.check known fresh settings.regression = .ok report := by
  have hcheck := (Settings.check_eq_ok.1 (Given.check_of_settings h.settings)).2
  obtain ⟨report, hreport, -⟩ := Regression.check_walked known fresh hcheck
  exact ⟨report, hreport⟩

theorem Reached.exists_iff (h : Reached given t reference checked report)
    {P : Regression.Report → Prop} :
    (∃ r, Reached given t reference checked r ∧ P r) ↔ P report := by
  obtain ⟨_, _, _, hl, hr⟩ := h
  constructor
  · rintro ⟨r, ⟨_, _, _, hl', hr'⟩, hp⟩
    obtain ⟨rfl, rfl, rfl⟩ := hl.unique hl'
    cases hr.symm.trans hr'
    exact hp
  · exact fun hp => ⟨report, ⟨_, _, _, hl, hr⟩, hp⟩

theorem Loads.exists_iff (h : Loads given t reference checked settings known fresh)
    {P : Settings → Baseline → Baseline → Prop} :
    (∃ s k f, Loads given t reference checked s k f ∧ P s k f) ↔ P settings known fresh := by
  constructor
  · rintro ⟨s, k, f, h', hp⟩
    obtain ⟨rfl, rfl, rfl⟩ := h.unique h'
    exact hp
  · exact fun hp => ⟨_, _, _, h, hp⟩

theorem code_status (r : Regression.Report) :
    r.status.code = if r.isRegression then 3 else 0 := by
  unfold Regression.Report.status
  split <;> rfl

section Run
variable {args : List String}
  (h : CommandLine.read .accept args = .ok (.accept reference checked, given)) (stdin : Bytes)
include h

theorem run_of_not_loads
    (hloads : ¬ ∃ settings known fresh, Loads given t reference checked settings known fresh) :
    (run .accept args stdin t).Silent .fatal t := by
  rw [run, h]
  dsimp only
  cases hs : given.settings t with
  | error fault => exact silent_of_isFatal (Given.isFatal_of_settings hs) _ _ _
  | ok settings =>
    dsimp only [carryOut, finish, Gate.accept]
    cases hk : (Baseline.load t reference).outcome with
    | error fault => exact silent_of_isFatal (Baseline.isFatal_of_load hk) _ _ _
    | ok known =>
      cases hf : (Baseline.load t checked).outcome with
      | error fault => exact silent_of_isFatal (Baseline.isFatal_of_load hf) _ _ _
      | ok fresh => exact absurd ⟨settings, known, fresh, hs, hk, hf⟩ hloads

/-- A run with a report in hand writes nothing after a regression, refuses an empty baseline, and
is in order once the new baseline is saved. -/
theorem run_of_reached (hreached : Reached given t reference checked report) :
    let e := run .accept args stdin t
    if report.isRegression then
      e.code = 3 ∧ e.stdout = report.render given.form ∧ e.tree = t
    else if report.baseline.isEmpty then e.Silent .emptyBaseline t
    else
      match report.baseline.save t reference with
      | .error _ => e.Silent .fatal t
      | .ok t' => e.code = 0 ∧ e.stdout = report.render given.form ∧ e.tree = t' := by
  obtain ⟨settings, known, fresh, ⟨hs, hk, hf⟩, hr⟩ := hreached
  rw [run, h]
  dsimp only
  rw [hs]
  dsimp only [carryOut, finish, Gate.accept]
  rw [hk]
  dsimp only
  rw [hf]
  dsimp only
  rw [hr]
  dsimp only
  by_cases hreg : report.isRegression
  · rw [if_pos hreg, if_pos hreg]
    exact ⟨(code_status report).trans (if_pos hreg), rfl, rfl⟩
  · rw [if_neg hreg, if_neg hreg, Gate.write]
    by_cases hempty : report.baseline.isEmpty
    · rw [if_pos hempty, if_pos hempty]
      exact silent_of_emptyBaseline _ _ _ _
    · rw [if_neg hempty, if_neg hempty]
      cases hsave : report.baseline.save t reference with
      | error fault => exact silent_of_isFatal (Baseline.isFatal_of_save hsave) _ _ _
      | ok t' => exact ⟨(code_status report).trans (if_neg hreg), rfl, rfl⟩

end Run

/-- The code, the tree and the output of an acceptance run agree. Code 0: no regression, and the
new baseline, which has entries, was saved in the place of the reference. Code 3: a metric
regressed. Code 4: there was nothing to check and nothing to check against. Everything else is
code 1. -/
theorem accept_code_tree_stdout {args : List String} {command : CommandLine.Command}
    {given : Given} (h : CommandLine.read .accept args = .ok (command, given)) (stdin : Bytes)
    (t : FileTree) :
    ∃ reference checked, command = .accept reference checked ∧
      let e := run .accept args stdin t
      (e.code = 0 ↔ ∃ report, Reached given t reference checked report ∧
        report.isRegression = false ∧ report.baseline.isEmpty = false ∧
        ∃ t', report.baseline.save t reference = .ok t') ∧
      (e.code = 3 ↔ ∃ settings known fresh,
        Loads given t reference checked settings known fresh ∧
        ∃ name entry worse, fresh.get? name = some entry ∧
          Regression.Judged settings.regression entry (known.get? name) (.regressed worse)) ∧
      (e.code = 4 ↔ ∃ settings known fresh,
        Loads given t reference checked settings known fresh ∧ known.isEmpty ∧ fresh.isEmpty) ∧
      (e.code = 0 ∨ e.code = 1 ∨ e.code = 3 ∨ e.code = 4) ∧
      (e.code = 0 → ∃ report, Reached given t reference checked report ∧
        e.stdout = report.render given.form ∧
        ∃ text place, report.baseline.render = .ok text ∧
          e.tree.read reference = .ok (.ofText text) ∧ t.locate reference = .ok place ∧
          ∀ q, q ≠ place → e.tree.get? q = t.get? q) ∧
      (e.code = 3 → ∃ report, Reached given t reference checked report ∧
        e.stdout = report.render given.form) ∧
      (e.code ≠ 0 → e.tree = t) ∧
      (e.code = 1 ∨ e.code = 4 → e.stdout = "") := by
  obtain ⟨reference, checked, rfl⟩ := CommandLine.exists_accept_of_read h
  refine ⟨reference, checked, rfl, ?_⟩
  by_cases hloads : ∃ s k f, Loads given t reference checked s k f
  · obtain ⟨settings, known, fresh, hloads⟩ := hloads
    obtain ⟨report, hcheck⟩ := hloads.reached
    have hreached : Reached given t reference checked report := ⟨_, _, _, hloads, hcheck⟩
    have hrun := run_of_reached h stdin hreached
    simp only [hreached.exists_iff, hloads.exists_iff,
      ← Regression.isRegression_iff_judged hcheck]
    rw [Regression.isEmpty_iff_of_check hcheck]
    dsimp only at hrun
    split at hrun
    · next hreg =>
      obtain ⟨hcode, hout, htree⟩ := hrun
      simp [hcode, hout, htree, hreg]
    · next hreg =>
      rw [Bool.not_eq_true] at hreg
      split at hrun
      · next hempty =>
        obtain ⟨hcode, hout, htree⟩ := hrun
        simp [hcode, hout, htree, hreg, hempty, ExitStatus.code]
      · next hempty =>
        rw [Bool.not_eq_true] at hempty
        split at hrun
        · next hsave =>
          obtain ⟨hcode, hout, htree⟩ := hrun
          simp [hcode, hout, htree, hreg, hempty, hsave, ExitStatus.code]
        · next t' hsave =>
          obtain ⟨hcode, hout, htree⟩ := hrun
          obtain ⟨text, htext, hreplace⟩ := Baseline.save_eq_ok.1 hsave
          obtain ⟨place, hlocate, hother⟩ := FileTree.get?_replace hreplace
          have hread := FileTree.read_replace hreplace
          rw [hcode, hout, htree]
          refine ⟨iff_of_true rfl ⟨hreg, hempty, t', hsave⟩, iff_of_false (by decide) (by simp [hreg]),
            iff_of_false (by decide) (by simp [hempty]), .inl rfl,
            fun _ => ⟨rfl, text, place, htext, hread, hlocate, hother⟩,
            fun h => absurd h (by decide), fun h => absurd rfl h, fun h => absurd h (by decide)⟩
  · obtain ⟨hcode, hout, htree⟩ := run_of_not_loads h stdin hloads
    have hnone : ∀ report, ¬ Reached given t reference checked report := by
      rintro report ⟨s, k, f, hl, -⟩
      exact hloads ⟨s, k, f, hl⟩
    have hnot : ∀ s k f, ¬ Loads given t reference checked s k f := fun s k f hl =>
      hloads ⟨s, k, f, hl⟩
    simp [hcode, hout, htree, hnone, hnot, ExitStatus.code]

/-- A faster run of one metric moves the reference. -/
theorem accept_faster_run :
    let t := FileTree.ofFiles ["w"]
      [("known.tsv", .ofText "a\t100.0\t2.0\n"), ("fresh.tsv", .ofText "a\t90.0\t1.0\n")]
    let e := run .accept ["known.tsv", "fresh.tsv"] [] t
    e.code = 0 ∧ ∃ (report : Regression.Report) (text : String) (place : Place),
      Reached { Given.empty with operands := ["known.tsv", "fresh.tsv"] } t
        "known.tsv" "fresh.tsv" report ∧
      report.baseline.render = .ok text ∧ e.tree.read "known.tsv" = .ok (.ofText text) ∧
      t.locate "known.tsv" = .ok place ∧ ∀ q, q ≠ place → e.tree.get? q = t.get? q := by
  intro t e
  have hread : CommandLine.read .accept ["known.tsv", "fresh.tsv"] = .ok
      (.accept "known.tsv" "fresh.tsv",
        { Given.empty with operands := ["known.tsv", "fresh.tsv"] }) := rfl
  have hcode : e.code = 0 := by decide +kernel
  obtain ⟨reference, checked, heq, hrun⟩ := accept_code_tree_stdout hread [] t
  cases heq
  obtain ⟨-, -, -, -, hsaved, -⟩ := hrun
  obtain ⟨report, hreached, -, text, place, hwritten⟩ := hsaved hcode
  exact ⟨hcode, report, text, place, hreached, hwritten⟩

end Ratchet.Program
