import Ratchet.Proofs.Decision
import Ratchet.Proofs.GateStep
import Ratchet.Proofs.Ratcheting
import Ratchet.Proofs.ToleranceBand

/-!
# The two gates together

What the convergence gate writes is fit for the acceptance gate: every entry has a finite mean and a
standard deviation that does not lie below zero (`sound_of_converged`), though the deviation can be
infinite. Checked against itself such an entry is tolerated (`tolerated_of_check_self`); checked
against nothing it is adopted.

A mean that left the range of the doubles cannot pass. If the values have no spread the sum of their
squares is finite, and the step that made it so had a finite mean to subtract
(`Moments.isFinite_mean_of_spread`). Otherwise some value must lie inside the band, at a finite
distance from the mean.
-/

namespace Ratchet

open Tally (observations? ofObservations)

namespace Moments

/-- The step takes the difference to its own mean into the spread. -/
theorem isFinite_mean_push {m : Moments Binary64} {x : Binary64}
    (h : (m.push x).spread.isFinite) : (m.push x).mean.isFinite := by
  have hproduct := (Binary64.isFinite_of_add h).2
  have hdifference := (Binary64.isFinite_of_mul hproduct).2
  exact (Binary64.isFinite_of_sub hdifference).2

theorem isFinite_mean_of_spread {xs : List Binary64} (h : (ofList xs).spread.isFinite) :
    (ofList xs).mean.isFinite := by
  rcases List.eq_nil_or_concat xs with rfl | ⟨ys, x, rfl⟩
  · rfl
  · rw [ofList, List.concat_eq_append, List.foldl_append] at h ⊢
    exact isFinite_mean_push h

theorem not_stddev_lt_zero (m : Moments Binary64) : ¬ m.stddev < 0 :=
  Binary64.not_sqrt_lt_zero _

end Moments

section Converged
variable {settings : ConvergenceSettings} {xs : List Binary64}

/-- Some value is kept, since the share of none is never enough. -/
theorem keptCount_pos_of_converged
    (hrange : ConvergenceSettings.acceptanceInRange settings.acceptance)
    (h : Converged settings xs) : 0 < keptCount settings.sigma xs := by
  refine Nat.pos_of_ne_zero fun hzero => ?_
  unfold Converged at h
  rw [hzero] at h
  have hpos := (ConvergenceSettings.acceptanceInRange_iff.1 hrange).1
  exact Binary64.not_zero_lt_share_zero _ (Binary64.lt_of_lt_of_le hpos h)

theorem isFinite_mean_of_converged
    (hrange : ConvergenceSettings.acceptanceInRange settings.acceptance)
    (h : Converged settings xs) : (Moments.ofList xs).mean.isFinite := by
  obtain ⟨v, -, hkept⟩ := List.countP_pos_iff.1 (keptCount_pos_of_converged hrange h)
  rcases Bool.or_eq_true _ _ ▸ hkept with hzero | hclose
  · exact Moments.isFinite_mean_of_spread (Binary64.isFinite_of_isZero hzero)
  · exact (Binary64.isFinite_of_sub (Binary64.isFinite_of_abs_lt hclose)).2

end Converged

/-- The statistics of an entry compare with themselves as they should. -/
structure Entry.Sound (e : Entry) : Prop where
  finite : e.mean.isFinite
  nonneg : ¬ e.stddev < 0

theorem observations_of_measure {stream : Bytes} {settings : ConvergenceSettings}
    {verdict : Convergence.Verdict} (h : Gate.measure stream settings = .ok verdict) :
    ∃ obs, observations? stream = some obs ∧ settings.check = .ok () ∧
      Convergence.evaluate (ofObservations obs) settings = .ok verdict := by
  cases hobs : observations? stream with
  | none =>
    obtain ⟨fault, hfault, -⟩ := Gate.measure_of_none hobs settings
    cases h.symm.trans hfault
  | some obs =>
    rw [Gate.measure_of_observations hobs] at h
    have heval := mapError_eq_ok.1 h
    obtain ⟨_, hcheck, -⟩ := bind_eq_ok.1 heval
    exact ⟨obs, rfl, hcheck, heval⟩

theorem sound_of_converged {stream : Bytes} {settings : ConvergenceSettings} {b : Baseline}
    (h : Gate.measure stream settings = .ok (.converged b)) (name : String) (e : Entry)
    (he : b.get? name = some e) : e.Sound := by
  obtain ⟨obs, -, hcheck, heval⟩ := observations_of_measure h
  obtain ⟨hall, rfl⟩ := (evaluate_eq_converged_iff hcheck).1 heval
  have hrange := (ConvergenceSettings.check_eq_ok.1 hcheck).2
  rw [get?_baseline_ofObservations] at he
  split at he
  · cases he
  · next hne =>
    cases he
    unfold Samples.entry
    rw [Samples.moments_ofValues]
    exact ⟨isFinite_mean_of_converged hrange (hall name hne), Moments.not_stddev_lt_zero _⟩

namespace Regression

variable {settings : RegressionSettings} {b : Baseline} {report : Report}

theorem adopted_of_check_empty (hcheck : check .empty b settings = .ok report) :
    report.isRegression = false ∧ (∀ c ∈ report.checks, c.verdict = .adopted) ∧
      report.baseline = b := by
  have hadopted : ∀ c ∈ report.checks, c.verdict = .adopted := fun c hc =>
    ((walked_of_check hcheck).judged c hc).eq_judge.symm
  have hpassed : report.isRegression = false :=
    Report.isRegression_eq_false_iff.2 fun c hc => by rw [hadopted c hc]; rfl
  refine ⟨hpassed, hadopted, NameMap.ext_get? fun name => ?_⟩
  rw [get?_baseline_of_passed hcheck hpassed, NameMap.get?_empty]
  exact Entry.least?_toList _

theorem tolerated_of_check_self (hsound : ∀ name e, b.get? name = some e → e.Sound)
    (hcheck : check b b settings = .ok report) :
    report.isRegression = false ∧ (∀ c ∈ report.checks, c.verdict = .tolerated c.checked) ∧
      report.baseline = b := by
  obtain ⟨_, hsettings, -⟩ := bind_eq_ok.1 hcheck
  have hrange := RegressionSettings.check_eq_ok.1 hsettings
  obtain ⟨hpassed, htolerated, hbaseline⟩ := tolerated_of_settled hcheck fun name e he =>
    ⟨e, he, judged_self hrange (hsound name e he).nonneg⟩
  refine ⟨hpassed, fun c hc => ?_, hbaseline⟩
  obtain ⟨e, he, hverdict⟩ := htolerated c hc
  cases (get?_of_mem_checks hcheck hpassed hc).symm.trans he
  exact hverdict

end Regression

/-! ## Runs -/

namespace Gate

variable {t : FileTree} {reference checked output : String} {known fresh b : Baseline}
  {report : Regression.Report} {regression : RegressionSettings} {text : String}

theorem accept_of_passed (h : Checked t reference checked regression known fresh report)
    (hpassed : report.isRegression = false) (hempty : report.baseline.isEmpty = false)
    (htext : report.baseline.render = .ok text) :
    (∀ t', t.replace reference (.ofText text) = .ok t' →
        (accept t reference checked regression).outcome = .ok report ∧
        (accept t reference checked regression).tree = t') ∧
      ∀ kind, t.replace reference (.ofText text) = .error kind →
        (accept t reference checked regression).outcome = .error (.io kind) ∧
        (accept t reference checked regression).tree = t := by
  obtain ⟨notices, hrun⟩ := accept_of_checked h
  rw [hrun, hpassed, if_neg Bool.false_ne_true, write, hempty, if_neg Bool.false_ne_true,
    Baseline.save_of_render htext]
  constructor
  · intro t' hreplace
    rw [hreplace]
    exact ⟨rfl, rfl⟩
  · intro kind hreplace
    rw [hreplace]
    exact ⟨rfl, rfl⟩

/-- What a convergence run wrote is accepted. By an empty reference every metric is adopted, and the
reference becomes the same text, byte by byte, if the file can be replaced at all. By itself, where
it was written, every metric is tolerated and the text stays. -/
theorem accept_of_converged {stream : Bytes} {settings : ConvergenceSettings}
    (h : (converge t stream output settings).outcome = .ok (.converged b))
    (hrange : RegressionSettings.toleranceInRange regression.tolerance) :
    ∃ text, (converge t stream output settings).tree.read output = .ok (.ofText text) ∧
      (∀ (u : FileTree) (reference checked : String), u.read checked = .ok (.ofText text) →
        u.read reference = .ok [] →
        ∃ report : Regression.Report, report.isRegression = false ∧
          report.checks.map Regression.Check.metric = b.entries ∧
          (∀ c ∈ report.checks, c.verdict = .adopted) ∧
          (∀ u', u.replace reference (.ofText text) = .ok u' →
            (accept u reference checked regression).outcome = .ok report ∧
            (accept u reference checked regression).tree.read reference = .ok (.ofText text)) ∧
          ∀ kind, u.replace reference (.ofText text) = .error kind →
            (accept u reference checked regression).outcome = .error (.io kind) ∧
            (accept u reference checked regression).tree = u) ∧
      let run := accept (converge t stream output settings).tree output output regression
      ∃ report : Regression.Report, run.outcome = .ok report ∧ report.isRegression = false ∧
        report.checks.map Regression.Check.metric = b.entries ∧
        (∀ c ∈ report.checks, c.verdict = .tolerated c.checked) ∧ report.ratcheted = 0 ∧
        run.tree.read output = .ok (.ofText text) := by
  have hwritten := converge_eq_converged_iff.1 h
  have hsettings := RegressionSettings.check_eq_ok.2 hrange
  obtain ⟨text, htext, hreplace⟩ := Baseline.save_eq_ok.1 hwritten.saved
  have hread := FileTree.read_replace hreplace
  refine ⟨text, hread, fun u reference checked hchecked hreference => ?_, ?_⟩
  · obtain ⟨report, hcheck, -⟩ := Regression.check_walked .empty b hsettings
    obtain ⟨hpassed, hadopted, hbaseline⟩ := Regression.adopted_of_check_empty hcheck
    obtain ⟨hreplaced, hkept⟩ := accept_of_passed ⟨Baseline.outcome_load_of_nil hreference,
      Baseline.outcome_load_of_render htext hchecked, hcheck⟩ hpassed
      (hbaseline ▸ hwritten.nonempty) (hbaseline ▸ htext)
    refine ⟨report, hpassed, Regression.metrics_of_passed hcheck hpassed, hadopted,
      fun u' hu => ?_, hkept⟩
    obtain ⟨houtcome, htree⟩ := hreplaced u' hu
    rw [htree]
    exact ⟨houtcome, FileTree.read_replace hu⟩
  · intro run
    obtain ⟨report, hcheck, -⟩ := Regression.check_walked b b hsettings
    have hsound := sound_of_converged hwritten.measured
    obtain ⟨hpassed, htolerated, hbaseline⟩ := Regression.tolerated_of_check_self hsound hcheck
    have hload := Baseline.outcome_load_of_render htext hread
    obtain ⟨hreplaced, -⟩ := accept_of_passed ⟨hload, hload, hcheck⟩ hpassed
      (hbaseline ▸ hwritten.nonempty) (hbaseline ▸ htext)
    obtain ⟨t', hagain⟩ := FileTree.replace_again hreplace (.ofText text)
    obtain ⟨houtcome, htree⟩ := hreplaced t' hagain
    refine ⟨report, houtcome, hpassed, Regression.metrics_of_passed hcheck hpassed, htolerated, ?_,
      ?_⟩
    · refine List.countP_eq_zero.2 fun c hc => ?_
      rw [htolerated c hc]
      exact Bool.false_ne_true
    · rw [show run.tree = t' from htree]
      exact FileTree.read_replace hagain

/-- Two metrics, one of them so scattered that its standard deviation is infinite, with a tolerance
of zero. -/
theorem accept_scattered_stream :
    let run := converge (.ofFiles ["w"] [("ref.tsv", [])])
      (.ofText "b:7\na:1e200\na:-1e200\n") "new.tsv" ⟨.ofNat 3, .ofNat 1⟩
    ∃ b text, run.outcome = .ok (.converged b) ∧ (b.get? "a").map Entry.stddev = some (.inf false) ∧
      run.tree.read "new.tsv" = .ok (.ofText text) ∧
      (accept run.tree "ref.tsv" "new.tsv" ⟨0⟩).tree.read "ref.tsv" = .ok (.ofText text) ∧
      (accept run.tree "new.tsv" "new.tsv" ⟨0⟩).tree.read "new.tsv" = .ok (.ofText text) := by
  intro run
  obtain ⟨b, hb⟩ : ∃ b, run.outcome = .ok (.converged b) :=
    exists_converged (by decide +kernel)
  have hrange : RegressionSettings.toleranceInRange 0 := by decide +kernel
  obtain ⟨text, hread, hempty, report, -, -, -, -, -, hself⟩ := accept_of_converged hb hrange
  have hreference : run.tree.read "ref.tsv" = .ok [] := toOption_eq_some.1 (by decide +kernel)
  have hentry : run.tree.fileEntry "ref.tsv" = .ok ["w", "ref.tsv"] :=
    toOption_eq_some.1 (by decide +kernel)
  have hreplace : run.tree.replace "ref.tsv" (.ofText text) =
      .ok (run.tree.set ["w", "ref.tsv"] (.file (.ofText text))) :=
    bind_eq_ok.2 ⟨_, hentry, rfl⟩
  obtain ⟨report, -, -, -, hreplaced, -⟩ := hempty run.tree "ref.tsv" "new.tsv" hread hreference
  obtain ⟨-, hadopted⟩ := hreplaced _ hreplace
  have hload := Baseline.load_of_save (converge_eq_converged_iff.1 hb).saved
  have hstddev : ((Baseline.load run.tree "new.tsv").outcome.toOption.bind (·.get? "a")).map
      Entry.stddev = some (.inf false) := by
    decide +kernel
  rw [toOption_eq_some.2 hload] at hstddev
  exact ⟨b, text, hb, hstddev, hread, hadopted, hself⟩

end Gate

end Ratchet
