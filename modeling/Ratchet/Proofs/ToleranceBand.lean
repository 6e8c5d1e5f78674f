import Ratchet.BaselineFile
import Ratchet.Proofs.Bounds
import Ratchet.Proofs.Regression

/-!
# What a verdict says about the band

A mean is tolerated when neither of two comparisons holds: it is not lower than the reference, and
its rise is not above the band. For numbers that compare this puts the rise inside the band, but a
comparison with what is not a number never holds. `Conclusive` says of the numbers themselves when
rise and band can be compared; a metric that is tolerated has risen by at most the band exactly if
they can, and a check that is not conclusive never finds a regression
(`tolerated_rise_le_iff_conclusive`).

A regression, on the other hand, always comes of numbers that compare. The mean is then higher than
the reference, or it is the same and the band lies below zero, which takes a negative standard
deviation (`regressed_mean_higher_or_band_negative`).
-/

namespace Ratchet

namespace Binary64

variable {x y : Binary64}

theorem isNan_nearest (s : Bool) (n d : Nat) : (nearest s n d).isNan = false := by
  rcases nearest_cases s n d with h | ⟨m, h⟩ <;> rw [h] <;> rfl

theorem isNan_finite_add_finite (s t : Bool) (a b : Magnitude) :
    (finite s a + finite t b).isNan = false := by
  rw [finite_add_finite]
  split
  · rfl
  · exact isNan_nearest _ _ _

/-- A difference is a number unless one side is none, or both are the same infinity. -/
theorem isNan_sub_iff : (x - y).isNan ↔ x.isNan ∨ y.isNan ∨ ∃ s, x = inf s ∧ y = inf s := by
  cases x with
  | nan => simp [isNan, show nan - y = nan from rfl]
  | inf s =>
    cases y with
    | nan => simp [isNan, show inf s - nan = nan from rfl]
    | inf t => cases s <;> cases t <;> decide
    | finite t b => simp [isNan, show inf s - finite t b = inf s from rfl]
  | finite s a =>
    cases y with
    | nan => simp [isNan, show finite s a - nan = nan from rfl]
    | inf t => simp [isNan, show finite s a - inf t = inf (!t) from rfl]
    | finite t b =>
      rw [finite_sub_finite, isNan_finite_add_finite]
      simp [isNan]

/-- A finite multiple is a number unless it is one of what is none, or no part of an infinity. -/
theorem isNan_mul_iff (hx : x.isFinite) :
    (x * y).isNan ↔ y.isNan ∨ x.isZero ∧ ∃ s, y = inf s := by
  cases x with
  | nan => cases hx
  | inf => cases hx
  | finite s a =>
    cases y with
    | nan => simp [isNan, mul_nan]
    | inf t =>
      rw [finite_mul_inf, isZero_finite_iff]
      split <;> simp_all [isNan]
    | finite t b =>
      rw [finite_mul_finite, isNan_nearest]
      simp [isNan]

theorem eq_inf_or_isFinite (h : x ≤ y) (h' : y ≤ x) :
    (∃ s, x = inf s ∧ y = inf s) ∨ x.isFinite ∧ y.isFinite := by
  obtain ⟨p, q, hp, hq, hpq⟩ := le_iff.1 h
  rw [le_iff_of_place hq hp] at h'
  obtain rfl : p = q := by omega
  have hplace := congrArg (Option.map Int.natAbs) (hp.trans hq.symm)
  cases x with
  | nan => cases hp
  | inf s =>
    cases y with
    | nan => cases hq
    | inf t =>
      cases s <;> cases t
      · exact .inl ⟨_, rfl, rfl⟩
      · exact absurd (hp.trans hq.symm) (by decide +kernel)
      · exact absurd (hp.trans hq.symm) (by decide +kernel)
      · exact .inl ⟨_, rfl, rfl⟩
    | finite t b =>
      simp only [place?, Option.map_some, natAbs_signed, Option.some.injEq] at hplace
      exact absurd hplace.symm (Nat.ne_of_lt b.bounded)
  | finite s a =>
    cases y with
    | nan => cases hq
    | inf t =>
      simp only [place?, Option.map_some, natAbs_signed, Option.some.injEq] at hplace
      exact absurd hplace (Nat.ne_of_lt a.bounded)
    | finite t b => exact .inr ⟨rfl, rfl⟩

/-- Equal values differ by zero, unless their difference is not a number. -/
theorem sub_of_le_of_le (h : x ≤ y) (h' : y ≤ x) (hnan : (x - y).isNan = false) :
    ∃ s, x - y = zero s := by
  rcases eq_inf_or_isFinite h h' with ⟨s, rfl, rfl⟩ | ⟨hx, hy⟩
  · rw [isNan_sub_iff.2 (.inr (.inr ⟨s, rfl, rfl⟩))] at hnan
    cases hnan
  · cases x with
    | nan => cases hx
    | inf => cases hx
    | finite s a =>
      cases y with
      | nan => cases hy
      | inf => cases hy
      | finite t b =>
        rw [le_iff_of_place rfl rfl] at h h'
        have hnot := signed_not t b.units
        rw [finite_sub_finite, finite_add_finite, if_pos (by omega)]
        exact ⟨_, rfl⟩

theorem zero_le_zero (s : Bool) : zero s ≤ 0 := by
  cases s <;> decide +kernel

theorem sub_self_of_not_isFinite (h : x.isFinite = false) : x - x = nan := by
  cases x with
  | nan => rfl
  | inf s => cases s <;> rfl
  | finite => cases h

end Binary64

namespace Regression

variable {settings : RegressionSettings} {e checked : Entry}

theorem Judged.of_tolerated {reference? : Option Entry}
    (h : Judged settings checked reference? (.tolerated e)) :
    reference? = some e ∧ ¬ checked.mean < e.mean ∧
      ¬ settings.tolerance * e.stddev < checked.mean - e.mean := by
  cases h with
  | tolerated hmean hrise => exact ⟨rfl, hmean, hrise⟩

theorem Judged.of_regressed {reference? : Option Entry}
    (h : Judged settings checked reference? (.regressed e)) :
    reference? = some e ∧ ¬ checked.mean < e.mean ∧
      settings.tolerance * e.stddev < checked.mean - e.mean := by
  cases h with
  | regressed hmean hrise => exact ⟨rfl, hmean, hrise⟩

/-! ## Conclusive checks -/

/-- The rise of a mean and the band it is held against are both numbers. -/
structure Conclusive (settings : RegressionSettings) (reference checked : Entry) : Prop where
  checkedMean : checked.mean.isNan = false
  mean : reference.mean.isNan = false
  stddev : reference.stddev.isNan = false
  /-- The same infinity has no difference to itself. -/
  apart : ¬ ∃ s, checked.mean = .inf s ∧ reference.mean = .inf s
  /-- No part of an infinite deviation is not a number either. -/
  part : ¬ (settings.tolerance.isZero ∧ ∃ s, reference.stddev = .inf s)

theorem conclusive_iff (h : settings.tolerance.isFinite) :
    Conclusive settings e checked ↔
      (checked.mean - e.mean).isNan = false ∧ (settings.tolerance * e.stddev).isNan = false := by
  rw [← Bool.not_eq_true, ← Bool.not_eq_true, Binary64.isNan_sub_iff, Binary64.isNan_mul_iff h]
  constructor
  · rintro ⟨hchecked, hmean, hstddev, hapart, hpart⟩
    exact ⟨not_or.2 ⟨Bool.eq_false_iff.1 hchecked, not_or.2 ⟨Bool.eq_false_iff.1 hmean, hapart⟩⟩,
      not_or.2 ⟨Bool.eq_false_iff.1 hstddev, hpart⟩⟩
  · rintro ⟨hrise, hband⟩
    simp only [not_or, Bool.not_eq_true] at hrise hband
    exact ⟨hrise.1, hrise.2.1, hband.1, hrise.2.2, hband.2⟩

theorem conclusive_of_isFinite (hchecked : checked.mean.isFinite) (hmean : e.mean.isFinite)
    (hstddev : e.stddev.isFinite) : Conclusive settings e checked where
  checkedMean := Binary64.isNan_of_isFinite hchecked
  mean := Binary64.isNan_of_isFinite hmean
  stddev := Binary64.isNan_of_isFinite hstddev
  apart := by
    rintro ⟨s, hs, -⟩
    rw [hs] at hchecked
    cases hchecked
  part := by
    rintro ⟨-, s, hs⟩
    rw [hs] at hstddev
    cases hstddev

/-! ## Tolerated metrics -/

/-- What is not above a band lies inside it, if the two compare at all. -/
theorem rise_le_iff_conclusive (h : settings.tolerance.isFinite)
    (hrise : ¬ settings.tolerance * e.stddev < checked.mean - e.mean) :
    checked.mean - e.mean ≤ settings.tolerance * e.stddev ↔ Conclusive settings e checked := by
  rw [conclusive_iff h]
  constructor
  · intro hle
    exact ⟨Binary64.isNan_of_le hle, Binary64.isNan_right_of_le hle⟩
  · rintro ⟨hdifference, hband⟩
    exact Binary64.le_of_not_lt hband hdifference hrise

theorem conclusive_of_lt (h : settings.tolerance.isFinite)
    (hlt : settings.tolerance * e.stddev < checked.mean - e.mean) :
    Conclusive settings e checked := by
  have hle := Binary64.le_of_lt hlt
  exact (conclusive_iff h).2 ⟨Binary64.isNan_right_of_le hle, Binary64.isNan_of_le hle⟩

/-- A metric that is tolerated has risen by at most the band exactly if its check is conclusive. A
check that is not never fails: the metric is improved if it is lower, and tolerated otherwise,
whatever its numbers are. Finite numbers always make a conclusive check. -/
theorem tolerated_rise_le_iff_conclusive
    (h : RegressionSettings.toleranceInRange settings.tolerance) (known fresh : Baseline) :
    ∃ report, check known fresh settings = .ok report ∧ ∀ c ∈ report.checks,
      (∀ e, c.verdict = .tolerated e → known.get? c.name = some e ∧
        ¬ c.checked.mean < e.mean ∧
        (c.checked.mean - e.mean ≤ settings.tolerance * e.stddev ↔
          Conclusive settings e c.checked) ∧
        (c.checked.mean.isFinite → e.mean.isFinite → e.stddev.isFinite →
          c.checked.mean - e.mean ≤ settings.tolerance * e.stddev)) ∧
      ∀ e, known.get? c.name = some e → ¬ Conclusive settings e c.checked →
        c.verdict = if c.checked.mean < e.mean then .improved e else .tolerated e := by
  have hfinite := (RegressionSettings.toleranceInRange_iff.1 h).1
  obtain ⟨report, hcheck, -, w⟩ :=
    check_walked known fresh (RegressionSettings.check_eq_ok.2 h)
  refine ⟨report, hcheck, fun c hc => ⟨fun e he => ?_, fun e he hnot => ?_⟩⟩
  · obtain ⟨hget, hmean, hrise⟩ := (he ▸ w.judged c hc).of_tolerated
    have hiff := rise_le_iff_conclusive hfinite hrise
    exact ⟨hget, hmean, hiff, fun hx hy hz => hiff.2 (conclusive_of_isFinite hx hy hz)⟩
  · have hjudged := w.judged c hc
    rw [he] at hjudged
    generalize c.verdict = v at hjudged ⊢
    cases hjudged with
    | improved hmean => exact (if_pos hmean).symm
    | regressed hmean hrise => exact absurd (conclusive_of_lt hfinite hrise) hnot
    | tolerated hmean hrise => exact (if_neg hmean).symm

theorem mem_checks_of_run {known fresh : Baseline} {report : Report} {c : Check}
    {rest : List Check} (hcheck : check known fresh settings = .ok report)
    (hrun : (check known fresh settings).toOption.map Report.checks = some (c :: rest)) :
    c ∈ report.checks := by
  rw [hcheck] at hrun
  rw [Option.some.inj hrun]
  exact List.mem_cons_self

/-- A rise of five, with a standard deviation of two. -/
theorem tolerated_small_rise :
    let settings : RegressionSettings := .default
    let known : Baseline := .ofList [("a", ⟨.ofNat 100, .ofNat 2⟩)]
    let fresh : Baseline := .ofList [("a", ⟨.ofNat 105, .ofNat 1⟩)]
    RegressionSettings.toleranceInRange settings.tolerance = true ∧
      ∃ report, check known fresh settings = .ok report ∧ ∃ c ∈ report.checks, ∃ e,
        c.verdict = .tolerated e ∧ Conclusive settings e c.checked ∧
        c.checked.mean - e.mean ≤ settings.tolerance * e.stddev := by
  intro settings known fresh
  have hrange : RegressionSettings.toleranceInRange settings.tolerance = true := by decide +kernel
  obtain ⟨report, hcheck, hall⟩ := tolerated_rise_le_iff_conclusive hrange known fresh
  have hrun : (check known fresh settings).toOption.map Report.checks =
      some [⟨"a", ⟨.ofNat 105, .ofNat 1⟩, .tolerated ⟨.ofNat 100, .ofNat 2⟩⟩] := by
    decide +kernel
  have hmem := mem_checks_of_run hcheck hrun
  obtain ⟨-, -, hiff, hfinite⟩ := (hall _ hmem).1 _ rfl
  have hle := hfinite (by decide +kernel) (by decide +kernel) (by decide +kernel)
  exact ⟨hrange, report, hcheck, _, hmem, _, rfl, hiff.1 hle, hle⟩

/-- A baseline file may hold a mean that is not a number. It compares with nothing and passes. -/
theorem tolerated_nan_mean :
    ∃ known fresh report c e,
      (Baseline.read "a\t100.0\t2.0\n").outcome = .ok known ∧
      (Baseline.read "a\tNaN\t1.0\n").outcome = .ok fresh ∧
      check known fresh .default = .ok report ∧ report.isRegression = false ∧
      c ∈ report.checks ∧ c.verdict = .tolerated e ∧
      ¬ c.checked.mean - e.mean ≤ RegressionSettings.default.tolerance * e.stddev := by
  have hknown : (Baseline.read "a\t100.0\t2.0\n").outcome.toOption =
      some (.ofList [("a", ⟨.ofNat 100, .ofNat 2⟩)]) := by
    decide +kernel
  have hfresh : (Baseline.read "a\tNaN\t1.0\n").outcome.toOption =
      some (.ofList [("a", ⟨.nan, .ofNat 1⟩)]) := by
    decide +kernel
  have hcheck : (check (.ofList [("a", ⟨.ofNat 100, .ofNat 2⟩)])
      (.ofList [("a", ⟨.nan, .ofNat 1⟩)]) .default).toOption =
      some ⟨[⟨"a", ⟨.nan, .ofNat 1⟩, .tolerated ⟨.ofNat 100, .ofNat 2⟩⟩], 0,
        .ofList [("a", ⟨.ofNat 100, .ofNat 2⟩)], .default⟩ := by
    decide +kernel
  exact ⟨_, _, _, _, _, toOption_eq_some.1 hknown, toOption_eq_some.1 hfresh,
    toOption_eq_some.1 hcheck, rfl, List.mem_cons_self, rfl, by decide +kernel⟩

/-! ## Regressions -/

/-- A rise above the band is one over the reference mean, or over a band below zero. -/
theorem lt_or_band_negative (hmean : ¬ checked.mean < e.mean)
    (hrise : settings.tolerance * e.stddev < checked.mean - e.mean) :
    e.mean < checked.mean ∨
      e.mean ≤ checked.mean ∧ checked.mean ≤ e.mean ∧ settings.tolerance * e.stddev < 0 := by
  have hdifference := Binary64.isNan_right_of_le (Binary64.le_of_lt hrise)
  have hsub := mt Binary64.isNan_sub_iff.2 (Bool.eq_false_iff.1 hdifference)
  simp only [not_or, Bool.not_eq_true] at hsub
  have hle := Binary64.le_of_not_lt hsub.1 hsub.2.1 hmean
  by_cases hlt : e.mean < checked.mean
  · exact .inl hlt
  · have hge := Binary64.le_of_not_lt hsub.2.1 hsub.1 hlt
    obtain ⟨s, hs⟩ := Binary64.sub_of_le_of_le hge hle hdifference
    rw [hs] at hrise
    exact .inr ⟨hle, hge, Binary64.lt_of_lt_of_le hrise (Binary64.zero_le_zero s)⟩

theorem judged_self_regressed_iff :
    (∃ worse, Judged settings e (some e) (.regressed worse)) ↔
      e.mean.isFinite ∧ settings.tolerance * e.stddev < 0 := by
  constructor
  · rintro ⟨worse, hjudged⟩
    obtain ⟨hworse, -, hrise⟩ := hjudged.of_regressed
    cases hworse
    cases hfinite : e.mean.isFinite with
    | true =>
      rw [Binary64.sub_self_of_isFinite hfinite] at hrise
      exact ⟨rfl, hrise⟩
    | false =>
      rw [Binary64.sub_self_of_not_isFinite hfinite] at hrise
      exact absurd hrise (Binary64.not_lt_nan _)
  · rintro ⟨hfinite, hband⟩
    refine ⟨e, .regressed (Binary64.not_lt_self _) ?_⟩
    rwa [Binary64.sub_self_of_isFinite hfinite]

/-- Without a negative standard deviation an entry is tolerated against itself, whatever its numbers
are. -/
theorem judged_self (hrange : RegressionSettings.toleranceInRange settings.tolerance)
    (h : ¬ e.stddev < 0) : Judged settings e (some e) (.tolerated e) := by
  have htolerance := Binary64.not_lt_of_le (RegressionSettings.toleranceInRange_iff.1 hrange).2
  refine .tolerated (Binary64.not_lt_self _) fun hrise => ?_
  have hself := judged_self_regressed_iff.1 ⟨e, .regressed (Binary64.not_lt_self _) hrise⟩
  exact Binary64.not_mul_lt_zero htolerance h hself.2

/-- A metric that has regressed is slower than the reference, or equally slow under a band below
zero, which only a negative standard deviation makes. So a baseline checked against itself is a
regression exactly if it has an entry with a finite mean and such a band. -/
theorem regressed_mean_higher_or_band_negative
    (h : RegressionSettings.toleranceInRange settings.tolerance) (known fresh : Baseline) :
    (∃ report, check known fresh settings = .ok report ∧
      ∀ c ∈ report.checks, ∀ e, c.verdict = .regressed e → known.get? c.name = some e ∧
        (e.mean < c.checked.mean ∨ e.mean ≤ c.checked.mean ∧ c.checked.mean ≤ e.mean ∧
          settings.tolerance * e.stddev < 0) ∧
        (¬ e.stddev < 0 → e.mean < c.checked.mean)) ∧
    ∃ report, check known known settings = .ok report ∧
      (report.isRegression ↔ ∃ name e, known.get? name = some e ∧ e.mean.isFinite ∧
        settings.tolerance * e.stddev < 0) ∧
      ((∀ name e, known.get? name = some e → ¬ e.stddev < 0) → report.isRegression = false) := by
  have hsettings := RegressionSettings.check_eq_ok.2 h
  have htolerance := Binary64.not_lt_of_le (RegressionSettings.toleranceInRange_iff.1 h).2
  refine ⟨?_, ?_⟩
  · obtain ⟨report, hcheck, -, w⟩ := check_walked known fresh hsettings
    refine ⟨report, hcheck, fun c hc e he => ?_⟩
    obtain ⟨hget, hmean, hrise⟩ := (he ▸ w.judged c hc).of_regressed
    have hcases := lt_or_band_negative hmean hrise
    refine ⟨hget, hcases, fun hstddev => hcases.resolve_right ?_⟩
    rintro ⟨-, -, hband⟩
    exact Binary64.not_mul_lt_zero htolerance hstddev hband
  · obtain ⟨report, hcheck, -⟩ := check_walked known known hsettings
    have hiff : report.isRegression ↔ ∃ name e, known.get? name = some e ∧ e.mean.isFinite ∧
        settings.tolerance * e.stddev < 0 := by
      rw [isRegression_iff_judged hcheck]
      constructor
      · rintro ⟨name, e, worse, he, hjudged⟩
        rw [he] at hjudged
        exact ⟨name, e, he, judged_self_regressed_iff.1 ⟨worse, hjudged⟩⟩
      · rintro ⟨name, e, he, hself⟩
        obtain ⟨worse, hjudged⟩ := judged_self_regressed_iff.2 hself
        exact ⟨name, e, worse, he, by rwa [he]⟩
    refine ⟨report, hcheck, hiff, fun hnonneg => Bool.eq_false_iff.2 fun hreg => ?_⟩
    obtain ⟨name, e, he, -, hband⟩ := hiff.1 hreg
    exact Binary64.not_mul_lt_zero htolerance (hnonneg name e he) hband

/-- A mean of 107 against one of a hundred, with a standard deviation of two. -/
theorem regressed_large_rise :
    let settings : RegressionSettings := .default
    let known : Baseline := .ofList [("a", ⟨.ofNat 100, .ofNat 2⟩)]
    let fresh : Baseline := .ofList [("a", ⟨.ofNat 107, .ofNat 1⟩)]
    RegressionSettings.toleranceInRange settings.tolerance = true ∧
      ∃ report, check known fresh settings = .ok report ∧ ∃ c ∈ report.checks, ∃ e,
        c.verdict = .regressed e ∧ known.get? c.name = some e ∧ e.mean < c.checked.mean := by
  intro settings known fresh
  have hrange : RegressionSettings.toleranceInRange settings.tolerance = true := by decide +kernel
  obtain ⟨⟨report, hcheck, hall⟩, -⟩ :=
    regressed_mean_higher_or_band_negative hrange known fresh
  have hrun : (check known fresh settings).toOption.map Report.checks =
      some [⟨"a", ⟨.ofNat 107, .ofNat 1⟩, .regressed ⟨.ofNat 100, .ofNat 2⟩⟩] := by
    decide +kernel
  have hmem := mem_checks_of_run hcheck hrun
  obtain ⟨hget, -, hhigher⟩ := hall _ hmem _ rfl
  exact ⟨hrange, report, hcheck, _, hmem, _, rfl, hget, hhigher (by decide +kernel)⟩

/-- A baseline file may hold a negative standard deviation. Checked against itself it fails. -/
theorem regressed_against_itself :
    ∃ known report c e,
      (Baseline.read "a\t100.0\t-1.0\n").outcome = .ok known ∧
      check known known .default = .ok report ∧ report.isRegression ∧
      c ∈ report.checks ∧ c.verdict = .regressed e ∧ ¬ e.mean < c.checked.mean := by
  have hknown : (Baseline.read "a\t100.0\t-1.0\n").outcome.toOption =
      some (.ofList [("a", ⟨.ofNat 100, -.ofNat 1⟩)]) := by
    decide +kernel
  have hcheck : (check (.ofList [("a", ⟨.ofNat 100, -.ofNat 1⟩)])
      (.ofList [("a", ⟨.ofNat 100, -.ofNat 1⟩)]) .default).toOption =
      some ⟨[⟨"a", ⟨.ofNat 100, -.ofNat 1⟩, .regressed ⟨.ofNat 100, -.ofNat 1⟩⟩], 0,
        .ofList [("a", ⟨.ofNat 100, -.ofNat 1⟩)], .default⟩ := by
    decide +kernel
  exact ⟨_, _, _, _, toOption_eq_some.1 hknown, toOption_eq_some.1 hcheck, rfl,
    List.mem_cons_self, rfl, Binary64.not_lt_self _⟩

end Regression

end Ratchet
