import Ratchet.Proofs.Bounds
import Ratchet.Proofs.Composition

/-!
# Where the statistics of a stream overflow

A metric that has converged has a finite mean and a standard deviation that is a number, but not
always a finite one: its square is the sum of squared deviations over the count, and the sum can
leave the range while every value is well inside it. The deviation is infinite exactly then
(`Moments.isFinite_stddev_iff`), and an infinite band keeps every value.

Values of at most `2 ^ 484` are moderate enough, however many there are. The mean stays among them,
the squares stay below `2 ^ 970`, and a sum of `2 ^ 1023` absorbs a square of that size, so it does
not grow any further (`Moments.Moderate.push`).
-/

namespace Ratchet

open Tally (observations? ofObservations)

namespace Binary64

theorem sqrt_of_units_eq_zero {s : Bool} {m : Magnitude} (h : m.units = 0) :
    (finite s m).sqrt = finite s m := by
  rw [sqrt, if_pos h]

end Binary64

namespace Moments

open Binary64 (Within)

variable {m : Moments Binary64} {x : Binary64} {xs : List Binary64}

theorem mean_push (m : Moments Binary64) (x : Binary64) :
    (m.push x).mean = m.mean + (x - m.mean) / .ofNat (m.count + 1) := by
  rw [← Binary64.natCast_eq_ofNat]
  rfl

theorem stddev_eq_sqrt (h : m.count ≠ 0) :
    m.stddev = (m.spread / .ofNat m.count).sqrt := by
  rw [stddev, variance, if_neg h, Binary64.natCast_eq_ofNat]

theorem within_stddev (hcount : m.count ≠ 0) (hnan : m.stddev.isNan = false)
    (h : m.spread.isFinite) : m.stddev.Within (.power 512) := by
  rw [stddev_eq_sqrt hcount] at hnan ⊢
  obtain ⟨b, hb⟩ := Binary64.exists_within h
  exact Binary64.within_sqrt (hb.div_ofNat (Nat.pos_of_ne_zero hcount)).isFinite hnan

/-- Nothing but the sum of the squares makes a deviation infinite. -/
theorem isFinite_stddev_iff (hcount : m.count ≠ 0) (hnan : m.stddev.isNan = false) :
    m.stddev.isFinite ↔ m.spread.isFinite := by
  refine ⟨fun h => ?_, fun h => (within_stddev hcount hnan h).isFinite⟩
  rw [stddev_eq_sqrt hcount] at h
  exact Binary64.isFinite_of_div_ofNat (Binary64.isFinite_of_sqrt h)

theorem isNan_stddev_of_isZero (hcount : m.count ≠ 0) (h : m.spread.isZero) :
    m.stddev.isNan = false := by
  rw [stddev_eq_sqrt hcount]
  obtain ⟨t, q, hq, hunits⟩ :=
    (Binary64.within_of_isZero h).div_ofNat (Nat.pos_of_ne_zero hcount)
  rw [hq, Binary64.sqrt_of_units_eq_zero (Nat.eq_zero_of_le_zero hunits)]
  rfl

/-- What holds of the statistics of moderate values, however many there are. -/
structure Moderate (m : Moments Binary64) : Prop where
  mean : m.mean.Within (.power 484)
  spread : m.spread.Within (.power 1023)
  start : m.count = 0 → m.mean = 0

theorem double_moderate_le : (Magnitude.power 484).units + (Magnitude.power 484).units ≤
    (Magnitude.power 485).units := by
  decide +kernel

theorem Moderate.mean_push (h : m.Moderate) (hx : x.Within (.power 484)) :
    (m.push x).mean.Within (.power 484) := by
  rw [Moments.mean_push]
  by_cases hcount : m.count = 0
  · rw [h.start hcount]
    exact (hx.sub_zero.div_ofNat (Nat.succ_pos _)).zero_add
  · exact h.mean.toward hx (by omega) double_moderate_le

theorem Moderate.push (h : m.Moderate) (hx : x.Within (.power 484)) : (m.push x).Moderate := by
  have hmean := h.mean_push hx
  have hsquare : (Magnitude.power 485).units * (Magnitude.power 485).units ≤
      (Magnitude.power 970).units * Magnitude.one := by
    decide +kernel
  have habsorb : roundTo Format.double.digits
      ((Magnitude.power 1023).units + (Magnitude.power 970).units) 1 ≤
      (Magnitude.power 1023).units := by
    decide +kernel
  have hproduct : ((x - m.mean) * (x - (m.push x).mean)).Within (.power 970) :=
    (hx.sub h.mean double_moderate_le).mul (hx.sub hmean double_moderate_le) hsquare
  exact ⟨hmean, h.spread.add hproduct habsorb, fun hzero => absurd hzero (Nat.succ_ne_zero _)⟩

theorem moderate_empty : (empty : Moments Binary64).Moderate :=
  ⟨Binary64.within_zero _ false, Binary64.within_zero _ false, fun _ => rfl⟩

theorem moderate_ofList (hxs : ∀ x ∈ xs, x.Within (.power 484)) : (ofList xs).Moderate :=
  List.foldlRecOn xs push moderate_empty fun _ h x hx => h.push (hxs x hx)

end Moments

/-! ## Converged metrics -/

section Converged
variable {settings : ConvergenceSettings} {xs : List Binary64}

/-- A value is kept by a band that it compares with, or for want of spread. -/
theorem isNan_stddev_of_converged
    (hrange : ConvergenceSettings.acceptanceInRange settings.acceptance)
    (h : Converged settings xs) : (Moments.ofList xs).stddev.isNan = false := by
  obtain ⟨v, hv, hkept⟩ := List.countP_pos_iff.1 (keptCount_pos_of_converged hrange h)
  rcases Bool.or_eq_true _ _ ▸ hkept with hzero | hclose
  · have hcount := Moments.count_ofList_ne_zero (List.ne_nil_of_mem hv)
    exact Moments.isNan_stddev_of_isZero hcount hzero
  · exact Binary64.isNan_right_of_mul (Binary64.isNan_right_of_le (Binary64.le_of_lt hclose))

end Converged

theorem Tally.exists_of_readStream {stream : Bytes} {tally : Tally} {lines : Nat}
    (h : readStream .empty stream = (tally, .ok lines)) :
    ∃ obs, observations? stream = some obs ∧ tally = ofObservations obs := by
  cases hobs : observations? stream with
  | none =>
    obtain ⟨fault, hfault, -⟩ := readLines_of_none hobs .empty 0
    rw [readStream] at h
    rw [h] at hfault
    cases hfault
  | some obs =>
    rw [readStream, readLines_of_observations hobs] at h
    exact ⟨obs, rfl, (Prod.mk.inj h).1.symm⟩

/-- A band of up to `1e153` standard deviations is as finite as the deviation. -/
theorem RegressionSettings.isFinite_band_iff {tolerance stddev : Binary64}
    (hrange : toleranceInRange tolerance) (hle : tolerance ≤ .ofDecimal false ⟨1, 153⟩)
    (hwithin : stddev.isFinite → stddev.Within (.power 512)) :
    (tolerance * stddev).isFinite ↔ stddev.isFinite := by
  refine ⟨fun h => (Binary64.isFinite_of_mul h).2, fun h => ?_⟩
  have hpower : Binary64.ofDecimal false ⟨1, 153⟩ ≤ .finite false (.power 511) := by
    decide +kernel
  have htolerance : tolerance.Within (.power 511) :=
    Binary64.within_of_nonneg_of_le (toleranceInRange_iff.1 hrange).2
      (Binary64.le_trans hle hpower)
  have hproduct : (Magnitude.power 511).units * (Magnitude.power 512).units ≤
      (Magnitude.power 1023).units * Magnitude.one := by
    decide +kernel
  exact (htolerance.mul (hwithin h) hproduct).isFinite

/-- An entry of a converged baseline has a finite mean, and a standard deviation that is a number
and not negative. The deviation is finite unless the sum of the squares has overflowed, which values
of at most `1e145` cannot bring about; and then so is every band of up to `1e153` deviations. -/
theorem entry_of_converged {stream : Bytes} {settings : ConvergenceSettings} {tally : Tally}
    {lines : Nat} {b : Baseline}
    (hread : Tally.readStream .empty stream = (tally, .ok lines))
    (heval : Convergence.evaluate tally settings = .ok (.converged b))
    {name : String} {e : Entry} (he : b.get? name = some e) :
    ∃ s, tally.get? name = some s ∧ e = s.entry ∧ e.mean.isFinite ∧ 0 ≤ e.stddev ∧
      (e.stddev.isFinite ↔ s.moments.spread.isFinite) ∧
      ((∀ x ∈ s.values, x.abs ≤ .ofDecimal false ⟨1, 145⟩) → e.stddev.isFinite) ∧
      ∀ tolerance, RegressionSettings.toleranceInRange tolerance →
        tolerance ≤ .ofDecimal false ⟨1, 153⟩ →
        ((tolerance * e.stddev).isFinite ↔ e.stddev.isFinite) ∧
        (e.stddev.isFinite → 0 ≤ tolerance * e.stddev) := by
  obtain ⟨obs, -, rfl⟩ := Tally.exists_of_readStream hread
  obtain ⟨_, hcheck, -⟩ := bind_eq_ok.1 heval
  have hacceptance := (ConvergenceSettings.check_eq_ok.1 hcheck).2
  obtain ⟨hall, rfl⟩ := (evaluate_eq_converged_iff hcheck).1 heval
  have hne : valuesOf name obs ≠ [] := fun hnil => by
    rw [get?_baseline_ofObservations, if_pos hnil] at he
    cases he
  rw [get?_baseline_ofObservations, if_neg hne] at he
  cases he
  rw [Tally.get?_ofObservations, if_neg hne]
  refine ⟨_, rfl, rfl, ?_⟩
  unfold Samples.entry
  rw [Samples.moments_ofValues, Samples.values_ofValues]
  have hconverged := hall name hne
  have hnan := isNan_stddev_of_converged hacceptance hconverged
  have hcount : (Moments.ofList (valuesOf name obs)).count ≠ 0 := by
    rw [Moments.count_ofList]
    exact fun hnil => hne (List.eq_nil_of_length_eq_zero hnil)
  have hiff := Moments.isFinite_stddev_iff hcount hnan
  have hsign := Moments.not_stddev_lt_zero (Moments.ofList (valuesOf name obs))
  refine ⟨isFinite_mean_of_converged hacceptance hconverged,
    Binary64.le_of_not_lt hnan rfl hsign, hiff, fun hvalues => ?_, fun tolerance hrange hle => ?_⟩
  · have hpower : Binary64.ofDecimal false ⟨1, 145⟩ ≤ .finite false (.power 484) := by
      decide +kernel
    refine hiff.2 (Moments.moderate_ofList fun x hx => ?_).spread.isFinite
    exact Binary64.within_of_abs_le (Binary64.le_trans (hvalues x (by simpa using hx)) hpower)
  · have hwithin := fun h => Moments.within_stddev hcount hnan (hiff.1 h)
    have hband := RegressionSettings.isFinite_band_iff hrange hle hwithin
    refine ⟨hband, fun hfinite => ?_⟩
    have hnonneg := (RegressionSettings.toleranceInRange_iff.1 hrange).2
    exact Binary64.le_of_not_lt (Binary64.isNan_of_isFinite (hband.2 hfinite)) rfl
      (Binary64.not_mul_lt_zero (Binary64.not_lt_of_le hnonneg) hsign)

/-! ## Evaluated streams -/

open Convergence.Verdict

/-- Two values as far apart as moderate values can be, under the settings of both tools. -/
theorem entry_of_wide_stream :
    let stream := Bytes.ofText "a:1e145\na:-1e145\nb:7\n"
    ∃ tally b e, Tally.readStream .empty stream = (tally, .ok 3) ∧
      Convergence.evaluate tally .default = .ok (.converged b) ∧ b.get? "a" = some e ∧
      e.stddev.isFinite ∧ (RegressionSettings.default.tolerance * e.stddev).isFinite := by
  intro stream
  have hread : Tally.readStream .empty stream = ((Tally.readStream .empty stream).1, .ok 3) :=
    Prod.ext rfl (toOption_eq_some.1 (by decide +kernel))
  have hget : ((Convergence.evaluate (Tally.readStream .empty stream).1 .default).toOption.bind
      (entryAt "a")).isSome := by
    decide +kernel
  obtain ⟨e, he⟩ := Option.isSome_iff_exists.1 hget
  obtain ⟨b, hb, he⟩ := exists_of_entryAt_eq_some he
  obtain ⟨s, hs, -, -, -, -, hmoderate, hband⟩ := entry_of_converged hread hb he
  have hvalues : ((Tally.readStream .empty stream).1.get? "a").all
      fun s => s.values.all fun x => x.abs.le (.ofDecimal false ⟨1, 145⟩) := by
    decide +kernel
  rw [hs, Option.all_some, Array.all_eq_true'] at hvalues
  have hfinite := hmoderate hvalues
  have hrange : RegressionSettings.toleranceInRange RegressionSettings.default.tolerance := by
    decide +kernel
  exact ⟨_, b, e, hread, hb, he, hfinite, ((hband _ hrange (by decide +kernel)).1).2 hfinite⟩

/-- Ten values of zero and a last one: a moderate one lies outside the band, and `1e200` makes the
band infinite, which keeps it. -/
theorem infinite_stddev_of_far_value :
    let stream := fun last => Bytes.ofText
      ("a:0\na:0\na:0\na:0\na:0\na:0\na:0\na:0\na:0\na:0\na:" ++ last ++ "\n")
    (∃ tally b, Tally.readStream .empty (stream "1e200") = (tally, .ok 11) ∧
      Convergence.evaluate tally .default = .ok (.converged b) ∧
      (b.get? "a").map Entry.stddev = some (.inf false)) ∧
    ∃ tally, Tally.readStream .empty (stream "100") = (tally, .ok 11) ∧
      Convergence.evaluate tally .default = .ok (.shortfall ⟨"a", 10, 11⟩) := by
  intro stream
  have hread (last : String)
      (h : (Tally.readStream .empty (stream last)).2.toOption = some 11) :
      Tally.readStream .empty (stream last) =
        ((Tally.readStream .empty (stream last)).1, .ok 11) :=
    Prod.ext rfl (toOption_eq_some.1 h)
  have hfar : ((Convergence.evaluate (Tally.readStream .empty (stream "1e200")).1
      .default).toOption.bind (entryAt "a")).map Entry.stddev = some (.inf false) := by
    decide +kernel
  have hnear : (Convergence.evaluate (Tally.readStream .empty (stream "100")).1
      .default).toOption.bind shortfall? = some ⟨"a", 10, 11⟩ := by
    decide +kernel
  obtain ⟨e, he, hstddev⟩ := Option.map_eq_some_iff.1 hfar
  obtain ⟨b, hb, hget⟩ := exists_of_entryAt_eq_some he
  refine ⟨⟨_, b, hread "1e200" (by decide +kernel), hb, ?_⟩, _,
    hread "100" (by decide +kernel), eq_of_shortfall?_eq_some hnear⟩
  rw [hget, Option.map_some, hstddev]

end Ratchet
