import Ratchet.Proofs.Ratcheting
import Ratchet.Proofs.RunningBounds
import Ratchet.Proofs.ToleranceBand

/-!
# Faster metrics

Being faster never fails: where a check passes, it passes with lower means as well
(`check_of_noSlower`). A mean that is not below the reference has a difference to it that grows with
the mean, rounded or infinite, as long as it is a number at all (`Binary64.lt_sub_of_le`); so
whatever rises above the band still does with a higher mean (`Judged.of_mean_le`). Of the band
nothing is asked, which may be infinite, negative or not a number.

The two checks may replace different entries. What is left of a known entry and a checked one
grows with the checked mean (`Entry.lower_mono`), so the reference is the lower for it.
-/

namespace Ratchet

namespace Binary64

variable {w x y z : Binary64}

theorem eq_inf_of_inf_le (h : inf false ≤ x) : x = inf false := by
  rcases eq_inf_or_isFinite h (le_inf (isNan_right_of_le h)) with ⟨s, hs, rfl⟩ | ⟨hfinite, -⟩
  · exact hs.symm
  · cases hfinite

theorem eq_inf_of_le_inf (h : x ≤ inf true) : x = inf true := by
  rcases eq_inf_or_isFinite h (inf_le (isNan_of_le h)) with ⟨s, rfl, hs⟩ | ⟨-, hfinite⟩
  · exact hs.symm
  · cases hfinite

/-- From a value that is not above them, the larger of two has the larger difference, if that of the
smaller is a number. -/
theorem lt_sub_of_le (hzx : z ≤ x) (hxy : x ≤ y) (hlt : w < x - z) : w < y - z := by
  have hnumber := isNan_right_of_le (le_of_lt hlt)
  have hapart : ¬ ∃ s, x = inf s ∧ z = inf s := fun hsame => by
    rw [isNan_sub_iff.2 (.inr (.inr hsame))] at hnumber
    cases hnumber
  cases z with
  | nan => cases isNan_of_le hzx
  | inf s =>
    cases s with
    | false => exact absurd ⟨false, eq_inf_of_inf_le hzx, rfl⟩ hapart
    | true =>
      cases y with
      | nan => cases isNan_right_of_le hxy
      | inf t =>
        cases t with
        | false => exact lt_of_lt_of_le hlt (le_inf hnumber)
        | true => exact absurd ⟨true, eq_inf_of_le_inf hxy, rfl⟩ hapart
      | finite => exact lt_of_lt_of_le hlt (le_inf hnumber)
  | finite u c =>
    cases y with
    | nan => cases isNan_right_of_le hxy
    | inf t =>
      cases t with
      | false => exact lt_of_lt_of_le hlt (le_inf hnumber)
      | true => cases eq_inf_of_le_inf (le_trans hzx hxy)
    | finite t b =>
      have hx := isFinite_of_bounds rfl rfl ⟨hzx, hxy⟩
      obtain ⟨p, hp⟩ := exists_place hx
      rw [le_iff_of_place hp rfl] at hxy
      refine lt_of_lt_of_le hlt ?_
      rw [le_iff_of_place (place?_sub hx rfl hp rfl) (place?_sub rfl rfl rfl rfl)]
      exact roundPlace_mono (by omega)

end Binary64

theorem Entry.lower_mono {known fast slow : Entry} (h : fast.mean ≤ slow.mean)
    (hnan : (lower known fast).mean.isNan = false) :
    (lower known fast).mean ≤ (lower known slow).mean := by
  unfold lower at *
  by_cases hfast : fast.mean < known.mean
  · rw [if_pos hfast]
    split
    · exact h
    · exact Binary64.le_of_lt hfast
  · rw [if_neg hfast] at hnan ⊢
    rw [if_neg fun hslow => hfast (Binary64.lt_of_le_of_lt h hslow)]
    exact Binary64.le_self hnan

/-- The same metrics, none of them slower. -/
structure Baseline.NoSlower (fast slow : Baseline) : Prop where
  names : fast.names = slow.names
  means : ∀ name e e', fast.get? name = some e → slow.get? name = some e' → e.mean ≤ e'.mean

namespace Baseline.NoSlower

variable {fast slow : Baseline} {name : String} {e : Entry}

theorem exists_slow (h : fast.NoSlower slow) (he : fast.get? name = some e) :
    ∃ e', slow.get? name = some e' ∧ e.mean ≤ e'.mean := by
  have hname : name ∈ slow.names := h.names ▸ NameMap.isSome_get?_iff.1 (Option.isSome_of_mem he)
  obtain ⟨e', he'⟩ := Option.isSome_iff_exists.1 (NameMap.isSome_get?_iff.2 hname)
  exact ⟨e', he', h.means name e e' he he'⟩

theorem get?_eq_none (h : fast.NoSlower slow) (hnone : fast.get? name = none) :
    slow.get? name = none := by
  rw [NameMap.get?_eq_none_iff] at hnone ⊢
  rwa [← h.names]

end Baseline.NoSlower

namespace Regression

variable {settings : RegressionSettings} {known fast slow : Baseline}

theorem Judged.of_mean_le {known? : Option Entry} {e e' worse : Entry} (h : e.mean ≤ e'.mean)
    (hjudged : Judged settings e known? (.regressed worse)) :
    Judged settings e' known? (.regressed worse) := by
  obtain ⟨rfl, hmean, hrise⟩ := hjudged.of_regressed
  have hnumber := Binary64.isNan_right_of_le (Binary64.le_of_lt hrise)
  have hsub := mt Binary64.isNan_sub_iff.2 (Bool.eq_false_iff.1 hnumber)
  simp only [not_or, Bool.not_eq_true] at hsub
  have hle := Binary64.le_of_not_lt hsub.1 hsub.2.1 hmean
  exact .regressed (Binary64.not_lt_of_le (Binary64.le_trans hle h))
    (Binary64.lt_sub_of_le hle h hrise)

/-- Being faster never fails. If a check passes, it passes with the same metrics and means that are
no larger, whatever the standard deviations are; and then no mean of the baseline it leaves is
larger, except where it is not a number. -/
theorem check_of_noSlower (hrange : RegressionSettings.toleranceInRange settings.tolerance)
    (h : fast.NoSlower slow) (known : Baseline) :
    ∃ report report', check known slow settings = .ok report ∧
      check known fast settings = .ok report' ∧
      (report.isRegression = false → report'.isRegression = false ∧
        ∀ name e', report'.baseline.get? name = some e' → e'.mean.isNan = false →
          ∃ e, report.baseline.get? name = some e ∧ e'.mean ≤ e.mean) := by
  have hsettings := RegressionSettings.check_eq_ok.2 hrange
  obtain ⟨report, hcheck, -⟩ := check_walked known slow hsettings
  obtain ⟨report', hcheck', -⟩ := check_walked known fast hsettings
  refine ⟨report, report', hcheck, hcheck', fun hpassed => ?_⟩
  have hpassed' : report'.isRegression = false := by
    refine Bool.eq_false_iff.2 fun hreg => ?_
    obtain ⟨name, e, worse, he, hjudged⟩ := (isRegression_iff_judged hcheck').1 hreg
    obtain ⟨e', he', hle⟩ := h.exists_slow he
    rw [(isRegression_iff_judged hcheck).2 ⟨name, e', worse, he', hjudged.of_mean_le hle⟩] at hpassed
    cases hpassed
  refine ⟨hpassed', fun name e' he' hnan => ?_⟩
  rw [get?_baseline_of_passed hcheck' hpassed'] at he'
  rw [get?_baseline_of_passed hcheck hpassed]
  cases hfast : fast.get? name with
  | none =>
    rw [hfast] at he'
    rw [h.get?_eq_none hfast]
    exact ⟨e', he', Binary64.le_self hnan⟩
  | some e =>
    obtain ⟨o, ho, hle⟩ := h.exists_slow hfast
    rw [hfast] at he'
    rw [ho]
    cases hknown : known.get? name with
    | none =>
      rw [hknown] at he'
      cases he'
      exact ⟨o, rfl, hle⟩
    | some k =>
      rw [hknown] at he'
      cases he'
      exact ⟨Entry.lower k o, rfl, Entry.lower_mono hle hnan⟩

/-- An improvement in place of a tolerated rise, the same mean under a band below zero, a mean that
stays infinite, and a reference that is not a number. -/
theorem check_of_noSlower_odd_references :
    let settings : RegressionSettings := .default
    let best : Entry := ⟨.ofNat 90, .ofNat 3⟩
    let known : Baseline := .ofList [("a", ⟨.ofNat 100, .ofNat 2⟩), ("b", ⟨.ofNat 50, -.ofNat 1⟩),
      ("c", ⟨.inf false, 0⟩), ("d", ⟨.nan, .nan⟩)]
    let slow : Baseline := .ofList [("a", ⟨.ofNat 105, 0⟩), ("b", ⟨.ofNat 49, 0⟩),
      ("c", ⟨.inf false, 0⟩), ("d", ⟨.ofNat 7, 0⟩), ("e", ⟨.ofNat 7, 0⟩)]
    let fast : Baseline := .ofList [("a", best), ("b", ⟨.ofNat 49, .nan⟩),
      ("c", ⟨.inf false, -.ofNat 1⟩), ("d", ⟨.inf true, 0⟩), ("e", ⟨.ofNat 6, 0⟩)]
    RegressionSettings.toleranceInRange settings.tolerance = true ∧ fast.NoSlower slow ∧
      ∃ report report', check known slow settings = .ok report ∧ report.isRegression = false ∧
        check known fast settings = .ok report' ∧ report'.isRegression = false ∧
        report'.baseline.get? "a" = some best ∧
        ∃ e, report.baseline.get? "a" = some e ∧ best.mean ≤ e.mean := by
  intro settings best known slow fast
  have hrange : RegressionSettings.toleranceInRange settings.tolerance = true := by decide +kernel
  have h : fast.NoSlower slow := by
    refine ⟨by decide +kernel, fun name e e' he he' => ?_⟩
    have hall : ∀ p ∈ fast.entries, ∀ p' ∈ slow.entries, p.1 = p'.1 → p.2.mean ≤ p'.2.mean := by
      decide +kernel
    exact hall _ (NameMap.get?_eq_some_iff.1 he) _ (NameMap.get?_eq_some_iff.1 he') rfl
  obtain ⟨report, report', hcheck, hcheck', hpass⟩ := check_of_noSlower hrange h known
  have hrun : (check known slow settings).toOption.map Report.isRegression = some false := by
    decide +kernel
  have hrun' : (check known fast settings).toOption.map (·.baseline.get? "a") =
      some (some best) := by
    decide +kernel
  have hnumber : best.mean.isNan = false := by decide +kernel
  rw [hcheck] at hrun
  rw [hcheck'] at hrun'
  obtain ⟨hpassed', hmeans⟩ := hpass (Option.some.inj hrun)
  have hbest : report'.baseline.get? "a" = some best := Option.some.inj hrun'
  exact ⟨hrange, h, report, report', hcheck, Option.some.inj hrun, hcheck', hpassed', hbest,
    hmeans "a" best hbest hnumber⟩

end Regression

end Ratchet
