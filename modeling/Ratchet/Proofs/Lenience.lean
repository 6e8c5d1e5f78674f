import Ratchet.Proofs.Places
import Ratchet.Proofs.Ratcheting

/-!
# Larger tolerances

A larger tolerance forgives more. A metric that passes gets the same verdict under it
(`Judged.of_tolerance_le`), so a check that passes reports the same and leaves the same baseline, and
one that fails goes as far or farther before it fails again (`check_of_tolerance_le`).

A band grows with the tolerance wherever it can be exceeded: a rise above the wider band means that
the band is finite, and so is the standard deviation, whatever it is multiplied by. An infinite
deviation under a tolerance of zero, which gives no band at all, is tolerated like any other. Only a
negative deviation would turn the order of the bands around.
-/

namespace Ratchet

theorem Binary64.mul_lt_of_le {w x y z : Binary64} (hx : x.isFinite) (hnonneg : 0 ≤ x)
    (hy : y.isFinite) (h : x ≤ y) (hz : ¬ z < 0) (hlt : y * z < w) : x * z < w := by
  have hband : ¬ y * z < 0 := not_mul_lt_zero (not_lt_of_le (le_trans hnonneg h)) hz
  have hfinite := (isFinite_of_mul (isFinite_of_lt hband hlt)).2
  exact lt_of_le_of_lt (mul_le_mul_of_isFinite hx hnonneg hy h hfinite hz) hlt

namespace Regression

variable {tight loose : RegressionSettings} {known fresh : Baseline}

section Order
variable (htight : RegressionSettings.toleranceInRange tight.tolerance)
  (hloose : RegressionSettings.toleranceInRange loose.tolerance)
  (h : tight.tolerance ≤ loose.tolerance)
include htight hloose h

/-- A verdict that passes stays as it is under a larger tolerance. -/
theorem Judged.of_tolerance_le {known? : Option Entry} {checked : Entry} {v : Verdict}
    (hstddev : ∀ e, known? = some e → ¬ e.stddev < 0) (hjudged : Judged tight checked known? v)
    (hpass : v.isRegression = false) : Judged loose checked known? v := by
  obtain ⟨hfinite, hnonneg⟩ := RegressionSettings.toleranceInRange_iff.1 htight
  obtain ⟨hfinite', -⟩ := RegressionSettings.toleranceInRange_iff.1 hloose
  cases hjudged with
  | adopted => exact .adopted
  | improved hlower => exact .improved hlower
  | regressed => cases hpass
  | @tolerated reference hlower hrise =>
    refine .tolerated hlower fun hexceeds => hrise ?_
    exact Binary64.mul_lt_of_le hfinite hnonneg hfinite' h (hstddev reference rfl) hexceeds

variable (hstddev : ∀ name e, known.get? name = some e → ¬ e.stddev < 0)
include hstddev

theorem checkOf_of_tolerance_le {e : String × Entry} (hpass : fails tight known e = false) :
    checkOf loose known e = checkOf tight known e := by
  have hjudged := judged_judge tight (known.get? e.1) e.2
  exact congrArg (Check.mk e.1 e.2)
    (hjudged.of_tolerance_le htight hloose h (hstddev e.1) hpass).eq_judge

theorem map_checkOf_of_tolerance_le {entries : List (String × Entry)}
    (hpass : ∀ e ∈ entries, fails tight known e = false) :
    entries.map (checkOf loose known) = entries.map (checkOf tight known) :=
  List.map_congr_left fun e he => checkOf_of_tolerance_le htight hloose h hstddev (hpass e he)

theorem fails_of_tolerance_le {e : String × Entry} (hpass : fails tight known e = false) :
    fails loose known e = false := by
  rw [← isRegression_checkOf, checkOf_of_tolerance_le htight hloose h hstddev hpass]
  exact hpass

/-- Raising the tolerance never turns a pass into a failure. A check that finds no regression finds
none under a larger tolerance, and gives the same verdicts and the same baseline. One that ends in a
regression gives the same verdicts before that metric, and then regresses there, at a later metric
or not at all. -/
theorem check_of_tolerance_le (fresh : Baseline) :
    ∃ report report', check known fresh tight = .ok report ∧
      check known fresh loose = .ok report' ∧
      (report.isRegression = false → report'.isRegression = false ∧
        report'.checks = report.checks ∧ report'.baseline = report.baseline) ∧
      ∀ worse, report.regression? = some worse →
        ∃ front, report.checks = front ++ [worse] ∧ front <+: report'.checks ∧
          ∀ worse', report'.regression? = some worse' → worse.name ≤ worse'.name := by
  obtain ⟨report, hcheck, -⟩ :=
    check_walked known fresh (RegressionSettings.check_eq_ok.2 htight)
  obtain ⟨report', hcheck', -⟩ :=
    check_walked known fresh (RegressionSettings.check_eq_ok.2 hloose)
  refine ⟨report, report', hcheck, hcheck', fun hpassed => ?_, fun worse hworse => ?_⟩
  · have hpass := (isRegression_eq_false_iff_fails hcheck).1 hpassed
    have hpassed' : report'.isRegression = false :=
      (isRegression_eq_false_iff_fails hcheck').2 fun e he =>
        fails_of_tolerance_le htight hloose h hstddev (hpass e he)
    refine ⟨hpassed', ?_, NameMap.ext_get? fun name => ?_⟩
    · rw [checks_of_passed hcheck' hpassed', checks_of_passed hcheck hpassed,
        map_checkOf_of_tolerance_le htight hloose h hstddev hpass]
    · rw [get?_baseline_of_passed hcheck' hpassed', get?_baseline_of_passed hcheck hpassed]
  · obtain ⟨front, e, back, hentries, hpass, rfl, hchecks⟩ :=
      exists_front_of_regression hcheck hworse
    obtain ⟨hbegins, hlater⟩ := prefix_checks_of_passes hcheck' hentries fun d hd =>
      fails_of_tolerance_le htight hloose h hstddev (hpass d hd)
    rw [map_checkOf_of_tolerance_le htight hloose h hstddev hpass] at hbegins
    refine ⟨_, hchecks, hbegins, fun worse' hworse' hlt => ?_⟩
    obtain ⟨e', he', rfl⟩ := hlater worse' hworse'
    -- A metric that the smaller tolerance had not come to has a larger name.
    have hback := (List.pairwise_append.1 (hentries ▸ fresh.ascending)).2.1
    rcases List.mem_cons.1 he' with rfl | he'
    · exact name_lt_irrefl _ hlt
    · exact name_lt_irrefl _ (name_lt_trans hlt ((List.pairwise_cons.1 hback).1 e' he'))

end Order

open RegressionSettings (strict permissive) in
/-- The strict and the permissive preset. An improvement on a deviation that is not a number, a rise
that is tolerated under the permissive preset alone, and one that is under neither. -/
theorem check_strict_then_permissive :
    let known : Baseline := .ofList [("a", ⟨.ofNat 9, .nan⟩), ("b", ⟨.ofNat 100, .ofNat 2⟩),
      ("c", ⟨.ofNat 100, .ofNat 2⟩), ("d", ⟨.ofNat 100, .inf false⟩)]
    let slow : Baseline := .ofList [("a", ⟨.ofNat 8, 0⟩), ("b", ⟨.ofNat 105, 0⟩),
      ("c", ⟨.ofNat 120, 0⟩), ("d", ⟨.ofNat 120, 0⟩)]
    let fast : Baseline := .ofList [("b", ⟨.ofNat 103, 0⟩), ("d", ⟨.ofNat 120, 0⟩)]
    (∃ front report report' worse, check known slow strict = .ok report ∧
        report.checks = front ++ [worse] ∧ worse.name = "b" ∧ front.length = 1 ∧
        check known slow permissive = .ok report' ∧ front <+: report'.checks ∧
        report'.regression?.map Check.name = some "c") ∧
      ∃ report report', check known fast strict = .ok report ∧ report.isRegression = false ∧
        check known fast permissive = .ok report' ∧ report'.isRegression = false ∧
        report'.checks = report.checks ∧ report'.baseline = report.baseline := by
  intro known slow fast
  have htight : RegressionSettings.toleranceInRange strict.tolerance := by decide +kernel
  have hloose : RegressionSettings.toleranceInRange permissive.tolerance := by decide +kernel
  have h : strict.tolerance ≤ permissive.tolerance := by decide +kernel
  have hstddev : ∀ name e, known.get? name = some e → ¬ e.stddev < 0 := by
    have hall : ∀ e ∈ known.entries, ¬ e.2.stddev < 0 := by decide +kernel
    exact fun name e he => hall _ (NameMap.get?_eq_some_iff.1 he)
  obtain ⟨report, report', hcheck, hcheck', -, hworse⟩ :=
    check_of_tolerance_le htight hloose h hstddev slow
  obtain ⟨passed, passed', hpassed, hpassed', hpass, -⟩ :=
    check_of_tolerance_le htight hloose h hstddev fast
  have hrun : (check known slow strict).toOption.map
      (fun r => (r.regression?.map Check.name, r.checks.length)) = some (some "b", 2) := by
    decide +kernel
  have hrun' : (check known slow permissive).toOption.map
      (fun r => r.regression?.map Check.name) = some (some "c") := by
    decide +kernel
  have hrunPassed : (check known fast strict).toOption.map Report.isRegression = some false := by
    decide +kernel
  rw [hcheck] at hrun
  rw [hcheck'] at hrun'
  rw [hpassed] at hrunPassed
  obtain ⟨hname, hlength⟩ := Prod.mk.inj (Option.some.inj hrun)
  obtain ⟨worse, hfirst, hname⟩ := Option.map_eq_some_iff.1 hname
  obtain ⟨front, hchecks, hbegins, -⟩ := hworse worse hfirst
  rw [hchecks, List.length_append, List.length_singleton] at hlength
  exact ⟨⟨front, report, report', worse, hcheck, hchecks, hname, by omega, hcheck', hbegins,
    Option.some.inj hrun'⟩, passed, passed', hpassed, Option.some.inj hrunPassed, hpassed',
    hpass (Option.some.inj hrunPassed)⟩

end Regression

end Ratchet
