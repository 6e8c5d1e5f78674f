import Ratchet.Proofs.Composition

/-!
# Accepting a check again

What an accepted check leaves under a metric tolerates the checked entry (`Judged.again`): an entry
that was adopted or improved on is now its own reference, and one that was tolerated still has the
same. So the same check against the new reference tolerates everything and replaces nothing
(`check_again`), and a second run writes the text that is already there (`accept_again`).

An entry is tolerated against itself unless its standard deviation is negative. Nothing else is
asked of the numbers, and not that the two files differ: a file that was accepted against itself
holds the same baseline afterwards (`Accepted.loadsFresh_again`).
-/

namespace Ratchet

namespace Regression

variable {settings : RegressionSettings} {known fresh : Baseline} {report : Report}

/-- What a verdict without a regression leaves tolerates the checked entry. -/
theorem Judged.again {known? : Option Entry} {checked : Entry} {v : Verdict}
    (h : Judged settings checked known? v) (hpass : v.isRegression = false)
    (hrange : RegressionSettings.toleranceInRange settings.tolerance)
    (hnonneg : ¬ checked.stddev < 0) :
    ∃ e, (if v.replaces then some checked else known?) = some e ∧
      Judged settings checked (some e) (.tolerated e) := by
  cases h with
  | adopted => exact ⟨checked, rfl, judged_self hrange hnonneg⟩
  | improved => exact ⟨checked, rfl, judged_self hrange hnonneg⟩
  | regressed => cases hpass
  | @tolerated reference hmean hrise => exact ⟨reference, rfl, .tolerated hmean hrise⟩

theorem check_again (hcheck : check known fresh settings = .ok report)
    (hpassed : report.isRegression = false)
    (hnonneg : ∀ name e, fresh.get? name = some e → ¬ e.stddev < 0) :
    ∃ again, check report.baseline fresh settings = .ok again ∧ again.isRegression = false ∧
      (∀ c ∈ again.checks, ∃ e, report.baseline.get? c.name = some e ∧
        c.verdict = .tolerated e) ∧
      again.baseline = report.baseline := by
  obtain ⟨_, hsettings, -⟩ := bind_eq_ok.1 hcheck
  obtain ⟨again, hagain, -⟩ := check_walked report.baseline fresh hsettings
  refine ⟨again, hagain, tolerated_of_settled hagain fun name e he => ?_⟩
  have hmem := NameMap.get?_eq_some_iff.1 he
  rw [← metrics_of_passed hcheck hpassed] at hmem
  obtain ⟨c, hc, hce⟩ := List.mem_map.1 hmem
  cases hce
  rw [get?_baseline_of_mem_checks hcheck hpassed hc]
  exact ((walked_of_check hcheck).judged c hc).again
    (Report.isRegression_eq_false_iff.1 hpassed c hc) (RegressionSettings.check_eq_ok.1 hsettings)
    (hnonneg _ _ he)

theorem baseline_of_check_self (hcheck : check known known settings = .ok report)
    (hpassed : report.isRegression = false) : report.baseline = known := by
  refine NameMap.ext_get? fun name => ?_
  rw [get?_baseline_of_passed hcheck hpassed]
  cases known.get? name with
  | none => rfl
  | some e => exact congrArg some (Entry.lower_self e)

end Regression

namespace Gate

variable {t t' : FileTree} {reference checked : String} {settings : RegressionSettings}
  {known fresh : Baseline} {report : Regression.Report}

/-- After an accepted check the checked file loads as it did, also where it is the reference. -/
theorem Accepted.loadsFresh_again
    (h : Accepted t reference checked settings known fresh report t') :
    (Baseline.load t' checked).outcome = .ok fresh := by
  obtain ⟨text, htext, hreplace⟩ := Baseline.save_eq_ok.1 h.saved
  obtain ⟨content, hread, hloads⟩ := Baseline.exists_read_of_load h.loadsFresh
  by_cases hsame : t.locate checked = t.locate reference
  · have hfresh := hloads t reference ((FileTree.read_eq_of_locate hsame).symm.trans hread)
    cases h.loadsKnown.symm.trans hfresh
    rw [← Regression.baseline_of_check_self h.checks h.passed]
    exact Baseline.outcome_load_of_render htext (FileTree.read_replace_of_locate hreplace hsame)
  · exact hloads t' checked (FileTree.read_replace_of_ne hreplace hsame hread)

/-- An accepted check can be run again and is accepted again, if no checked standard deviation is
negative. Every metric is then tolerated against what the first run left, no entry is replaced, and
the reference keeps its text byte by byte, as everything else in the tree. -/
theorem accept_again (h : (accept t reference checked settings).outcome = .ok report)
    (hpassed : report.isRegression = false)
    (hload : (Baseline.load t checked).outcome = .ok fresh)
    (hnonneg : ∀ name e, fresh.get? name = some e → ¬ e.stddev < 0) :
    let first := accept t reference checked settings
    let second := accept first.tree reference checked settings
    ∃ again : Regression.Report, second.outcome = .ok again ∧ again.isRegression = false ∧
      again.checks.map Regression.Check.metric = fresh.entries ∧
      (∀ c ∈ again.checks, ∃ e, report.baseline.get? c.name = some e ∧
        c.verdict = .tolerated e) ∧
      again.ratcheted = 0 ∧
      (∃ text, first.tree.read reference = .ok (.ofText text) ∧
        second.tree.read reference = .ok (.ofText text)) ∧
      ∀ p, second.tree.get? p = first.tree.get? p := by
  intro first second
  obtain ⟨known, fresh', haccepted⟩ := accepted_of_accept h hpassed
  cases hload.symm.trans haccepted.loadsFresh
  obtain ⟨again, hagain, hpass, htolerated, hbaseline⟩ :=
    Regression.check_again haccepted.checks hpassed hnonneg
  obtain ⟨text, htext, hreplace⟩ := Baseline.save_eq_ok.1 haccepted.saved
  have hread := FileTree.read_replace hreplace
  obtain ⟨t', hreplace'⟩ := FileTree.replace_again hreplace (.ofText text)
  obtain ⟨houtcome, htree⟩ := (accept_of_passed
    ⟨Baseline.load_of_save haccepted.saved, haccepted.loadsFresh_again, hagain⟩ hpass
    (hbaseline ▸ haccepted.nonempty) (hbaseline ▸ htext)).1 t' hreplace'
  refine ⟨again, houtcome, hpass, Regression.metrics_of_passed hagain hpass, htolerated, ?_,
    ⟨text, hread, ?_⟩, fun p => ?_⟩
  · refine List.countP_eq_zero.2 fun c hc => ?_
    obtain ⟨e, -, hverdict⟩ := htolerated c hc
    rw [hverdict]
    exact Bool.false_ne_true
  · rw [show second.tree = t' from htree]
    exact FileTree.read_replace hreplace'
  · rw [show second.tree = t' from htree]
    exact FileTree.get?_replace_of_read hread hreplace' p

/-- Numbers that compare with nothing, infinite ones and a negative zero, under a tolerance of
zero: two metrics are new, one is faster and one tolerated. -/
theorem accept_again_odd_numbers :
    let t := FileTree.ofFiles ["w"] [("ref.tsv", .ofText "b\t5.0\t1.0\nd\t1.0\tNaN\n"),
      ("new.tsv", .ofText "a\tNaN\tinf\nb\t-inf\t-0.0\nc\tinf\tNaN\nd\t9.0\t0.0\n")]
    let first := accept t "ref.tsv" "new.tsv" ⟨0⟩
    let second := accept first.tree "ref.tsv" "new.tsv" ⟨0⟩
    ∃ report again, first.outcome = .ok report ∧ report.ratcheted = 3 ∧
      second.outcome = .ok again ∧ again.checks.map (·.name) = ["a", "b", "c", "d"] ∧
      (∀ c ∈ again.checks, ∃ e, c.verdict = .tolerated e) ∧ again.ratcheted = 0 ∧
      second.tree.read "ref.tsv" = first.tree.read "ref.tsv" := by
  intro t first second
  let fresh : Baseline := .ofList [("a", ⟨.nan, .inf false⟩), ("b", ⟨.inf true, .zero true⟩),
    ("c", ⟨.inf false, .nan⟩), ("d", ⟨.ofNat 9, 0⟩)]
  have hrun : first.outcome.toOption.map (fun r => (r.isRegression, r.ratcheted)) =
      some (false, 3) := by
    decide +kernel
  obtain ⟨report, hreport, heq⟩ := Option.map_eq_some_iff.1 hrun
  obtain ⟨hpassed, hratcheted⟩ := Prod.mk.inj heq
  have hload : (Baseline.load t "new.tsv").outcome = .ok fresh :=
    toOption_eq_some.1 (by decide +kernel)
  have hstddevs : ∀ e ∈ fresh.entries, ¬ e.2.stddev < 0 := by decide +kernel
  obtain ⟨again, houtcome, -, hmetrics, htolerated, hzero, ⟨text, hfirst, hsecond⟩, -⟩ :=
    accept_again (toOption_eq_some.1 hreport) hpassed hload fun name e he =>
      hstddevs (name, e) (NameMap.get?_eq_some_iff.1 he)
  have hnames : fresh.entries.map Prod.fst = ["a", "b", "c", "d"] := by decide +kernel
  rw [← hmetrics, List.map_map] at hnames
  refine ⟨report, again, toOption_eq_some.1 hreport, hratcheted, houtcome, hnames,
    fun c hc => ?_, hzero, hsecond.trans hfirst.symm⟩
  obtain ⟨e, -, hverdict⟩ := htolerated c hc
  exact ⟨e, hverdict⟩

end Gate

end Ratchet
