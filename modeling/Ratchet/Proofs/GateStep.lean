import Ratchet.Proofs.BaselineText
import Ratchet.Proofs.Convergence
import Ratchet.Proofs.FileTree
import Ratchet.Proofs.Regression

/-!
# What one run of a gate does

A run of either gate writes at most one file, and only at its end. `Written` is everything that a
convergence run with a baseline did (`converge_eq_converged_iff`), and `Accepted` everything that an
acceptance run without a regression did. Every other acceptance run leaves the tree as it was
(`accept_cases`).

Loading a baseline needs nothing of a tree but the content of one file (`load_eq_of_read`), and what
was saved loads again (`load_of_save`).
-/

namespace Ratchet

namespace Baseline

variable {t t' : FileTree} {path path' : String} {b : Baseline} {text : String}

theorem load_eq_of_read (h : t.read path = t'.read path) : load t path = load t' path := by
  simp only [load, FileTree.readText, h]

theorem outcome_load_eq_ok : (load t path).outcome = .ok b ↔
    ∃ content, t.readText path = .ok content ∧ (read content).outcome = .ok b := by
  unfold load
  cases hcontent : t.readText path with
  | error kind => cases kind <;> simp
  | ok content =>
    dsimp only
    cases hreading : (read content).outcome with
    | error flaw => simp [hreading]
    | ok b' => simp [hreading]

/-- What loads has a content, and loads from wherever that content is. -/
theorem exists_read_of_load (h : (load t path).outcome = .ok b) :
    ∃ content, t.read path = .ok content ∧
      ∀ (t' : FileTree) (path' : String), t'.read path' = .ok content →
        (load t' path').outcome = .ok b := by
  obtain ⟨text, htext, hb⟩ := outcome_load_eq_ok.1 h
  obtain ⟨content, hread, hcontent⟩ := bind_eq_ok.1 htext
  exact ⟨content, hread, fun t' path' hread' =>
    outcome_load_eq_ok.2 ⟨text, bind_eq_ok.2 ⟨content, hread', hcontent⟩, hb⟩⟩

theorem outcome_load_of_render (htext : b.render = .ok text)
    (h : t.read path = .ok (.ofText text)) : (load t path).outcome = .ok b := by
  have hcontent : t.readText path = .ok text := by
    rw [FileTree.readText, h, ok_bind, Bytes.toText?_ofText]
  exact outcome_load_eq_ok.2 ⟨text, hcontent, read_of_render htext⟩

theorem outcome_load_of_nil (h : t.read path = .ok []) : (load t path).outcome = .ok .empty :=
  outcome_load_of_render rfl h

theorem read_of_save (h : b.save t path = .ok t') :
    ∃ text, b.render = .ok text ∧ t'.read path = .ok (.ofText text) := by
  obtain ⟨text, htext, hreplace⟩ := save_eq_ok.1 h
  exact ⟨text, htext, FileTree.read_replace hreplace⟩

theorem load_of_save (h : b.save t path = .ok t') : (load t' path).outcome = .ok b := by
  obtain ⟨text, htext, hread⟩ := read_of_save h
  exact outcome_load_of_render htext hread

theorem save_of_render (htext : b.render = .ok text) :
    b.save t path = (t.replace path (.ofText text)).mapError Fault.io := by
  rw [save, htext]
  rfl

end Baseline

namespace Gate

variable {t t' : FileTree} {stream : Bytes} {output reference checked path : String}
  {b known fresh : Baseline} {notices : List Notice}

theorem write_eq_ok_iff {α : Type} {v v' : α} :
    (write v b notices t path).outcome = .ok v' ↔
      v' = v ∧ b.isEmpty = false ∧ b.save t path = .ok (write v b notices t path).tree := by
  unfold write
  by_cases hempty : b.isEmpty
  · simp [hempty]
  · cases hsave : b.save t path with
    | error fault => simp [hempty]
    | ok t' => simp [hempty, eq_comm]

theorem tree_of_write_error {α : Type} {v : α} {fault : Fault}
    (h : (write v b notices t path).outcome = .error fault) :
    (write v b notices t path).tree = t := by
  unfold write at h ⊢
  split
  · rfl
  · next hempty =>
    rw [if_neg hempty] at h
    cases hsave : b.save t path with
    | error fault => rfl
    | ok t' =>
      rw [hsave] at h
      cases h

/-! ## Convergence -/

section Convergence
variable {settings : ConvergenceSettings}

/-- A convergence run has written a baseline. -/
structure Written (t : FileTree) (stream : Bytes) (output : String)
    (settings : ConvergenceSettings) (b : Baseline) (t' : FileTree) : Prop where
  measured : measure stream settings = .ok (.converged b)
  nonempty : b.isEmpty = false
  saved : b.save t output = .ok t'

theorem exists_converged {ε : Type} {outcome : Except ε Convergence.Verdict}
    (h : outcome.toOption.map Convergence.Verdict.isConverged = some true) :
    ∃ b, outcome = .ok (.converged b) := by
  obtain ⟨verdict, hverdict, hconverged⟩ := Option.map_eq_some_iff.1 h
  cases verdict with
  | converged b => exact ⟨b, toOption_eq_some.1 hverdict⟩
  | shortfall => cases hconverged

theorem converge_eq_converged_iff :
    (converge t stream output settings).outcome = .ok (.converged b) ↔
      Written t stream output settings b (converge t stream output settings).tree := by
  unfold converge
  cases hmeasure : measure stream settings with
  | error fault =>
    refine iff_of_false (fun h => by cases h) fun h => ?_
    cases hmeasure.symm.trans h.measured
  | ok verdict =>
    cases verdict with
    | shortfall short =>
      refine iff_of_false (fun h => by cases h) fun h => ?_
      cases hmeasure.symm.trans h.measured
    | converged b' =>
      dsimp only
      rw [write_eq_ok_iff]
      constructor
      · rintro ⟨heq, hempty, hsave⟩
        cases heq
        exact ⟨hmeasure, hempty, hsave⟩
      · rintro ⟨hmeasured, hempty, hsave⟩
        cases hmeasure.symm.trans hmeasured
        exact ⟨rfl, hempty, hsave⟩

end Convergence

/-! ## Acceptance -/

section Acceptance
variable {settings : RegressionSettings} {report : Regression.Report}

/-- An acceptance run has got as far as a report. -/
structure Checked (t : FileTree) (reference checked : String) (settings : RegressionSettings)
    (known fresh : Baseline) (report : Regression.Report) : Prop where
  loadsKnown : (Baseline.load t reference).outcome = .ok known
  loadsFresh : (Baseline.load t checked).outcome = .ok fresh
  checks : Regression.check known fresh settings = .ok report

/-- An acceptance run has found no regression and replaced the reference. -/
structure Accepted (t : FileTree) (reference checked : String) (settings : RegressionSettings)
    (known fresh : Baseline) (report : Regression.Report) (t' : FileTree) : Prop
    extends Checked t reference checked settings known fresh report where
  passed : report.isRegression = false
  nonempty : report.baseline.isEmpty = false
  saved : report.baseline.save t reference = .ok t'

theorem accept_of_checked (h : Checked t reference checked settings known fresh report) :
    ∃ notices, accept t reference checked settings =
      if report.isRegression then ⟨.ok report, notices, t⟩
      else write report report.baseline notices t reference := by
  unfold accept
  dsimp only
  rw [h.loadsKnown]
  dsimp only
  rw [h.loadsFresh]
  dsimp only
  rw [h.checks]
  exact ⟨_, rfl⟩

theorem accept_of_not_checked
    (h : ∀ known fresh report, ¬ Checked t reference checked settings known fresh report) :
    ∃ fault notices, accept t reference checked settings = ⟨.error fault, notices, t⟩ := by
  unfold accept
  dsimp only
  cases hknown : (Baseline.load t reference).outcome with
  | error fault => exact ⟨fault, _, rfl⟩
  | ok known =>
    cases hfresh : (Baseline.load t checked).outcome with
    | error fault => exact ⟨fault, _, rfl⟩
    | ok fresh =>
      dsimp only
      cases hcheck : Regression.check known fresh settings with
      | error flaw => exact ⟨flaw.fault, _, rfl⟩
      | ok report => exact absurd ⟨hknown, hfresh, hcheck⟩ (h known fresh report)

/-- The run of an accepted check reports it and leaves the tree with the new reference. -/
theorem accept_of_accepted (h : Accepted t reference checked settings known fresh report t') :
    (accept t reference checked settings).outcome = .ok report ∧
      (accept t reference checked settings).tree = t' := by
  obtain ⟨notices, hrun⟩ := accept_of_checked h.toChecked
  rw [hrun, if_neg (Bool.eq_false_iff.1 h.passed), write, if_neg (Bool.eq_false_iff.1 h.nonempty),
    h.saved]
  exact ⟨rfl, rfl⟩

theorem accept_cases (t : FileTree) (reference checked : String) (settings : RegressionSettings) :
    (∃ known fresh report, Accepted t reference checked settings known fresh report
        (accept t reference checked settings).tree) ∨
      (accept t reference checked settings).tree = t ∧
        ∀ report, (accept t reference checked settings).outcome = .ok report →
          report.isRegression := by
  by_cases hchecked : ∃ known fresh report, Checked t reference checked settings known fresh report
  · obtain ⟨known, fresh, report, hchecked⟩ := hchecked
    obtain ⟨notices, hrun⟩ := accept_of_checked hchecked
    rw [hrun]
    cases hreg : report.isRegression with
    | true =>
      refine .inr ⟨rfl, fun report' h => ?_⟩
      cases h
      exact hreg
    | false =>
      simp only [Bool.false_eq_true, if_false]
      cases hwrite : (write report report.baseline notices t reference).outcome with
      | error fault => exact .inr ⟨tree_of_write_error hwrite, fun _ h => by cases h⟩
      | ok report' =>
        obtain ⟨rfl, hempty, hsave⟩ := write_eq_ok_iff.1 hwrite
        exact .inl ⟨known, fresh, _, ⟨hchecked, hreg, hempty, hsave⟩⟩
  · have hnone : ∀ known fresh report,
        ¬ Checked t reference checked settings known fresh report := fun known fresh report h =>
      hchecked ⟨known, fresh, report, h⟩
    obtain ⟨fault, notices, hrun⟩ := accept_of_not_checked hnone
    rw [hrun]
    exact .inr ⟨rfl, fun _ h => by cases h⟩

theorem accepted_of_accept (h : (accept t reference checked settings).outcome = .ok report)
    (hpassed : report.isRegression = false) :
    ∃ known fresh, Accepted t reference checked settings known fresh report
      (accept t reference checked settings).tree := by
  rcases accept_cases t reference checked settings with
    ⟨known, fresh, report', haccepted⟩ | ⟨-, hregression⟩
  · cases h.symm.trans (accept_of_accepted haccepted).1
    exact ⟨known, fresh, haccepted⟩
  · rw [hregression report h] at hpassed
    cases hpassed

end Acceptance

end Gate

end Ratchet
