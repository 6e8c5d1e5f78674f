import Ratchet.Proofs.RunningBounds

/-!
# Metrics whose values are all equal

As long as equal values come in, no rounding error does. The mean is bounded by the one value from
both sides, so it is equal to it; the distance of a value to the mean is then a zero, which leaves
nothing to add to the spread. `Moments.Flat` is the invariant. A flat metric has a standard
deviation of zero and keeps all of its values, so it meets every acceptance.

The zeros are equal: a metric of zeros may have a mean of either sign. Its spread is the positive
zero all the same, since that is what sums of zeros start from.
-/

namespace Ratchet

namespace Binary64

variable {x y z : Binary64} {p q : Int} {n : Nat}

/-- Equal as numbers. The two zeros are, and what is not a number equals nothing. -/
def Equal (x y : Binary64) : Prop := x ≤ y ∧ y ≤ x

instance (x y : Binary64) : Decidable (Equal x y) := inferInstanceAs (Decidable (_ ∧ _))

theorem Equal.symm (h : Equal x y) : Equal y x := ⟨h.2, h.1⟩

theorem Equal.trans (h : Equal x y) (h' : Equal y z) : Equal x z :=
  ⟨le_trans h.1 h'.1, le_trans h'.2 h.2⟩

theorem equal_iff_of_place (hx : x.place? = some p) (hy : y.place? = some q) :
    Equal x y ↔ p = q := by
  rw [Equal, le_iff_of_place hx hy, le_iff_of_place hy hx]
  omega

theorem isZero_sub_of_equal (h : Equal x y) (hx : x.isFinite) : (x - y).isZero := by
  obtain ⟨p, hp⟩ := exists_place hx
  have hy : y.isFinite := isFinite_of_bounds hx hx h
  obtain ⟨q, hq⟩ := exists_place hy
  rw [equal_iff_of_place hp hq] at h
  rw [isZero, place?_sub hx hy hp hq, h, Int.sub_self, roundPlace_zero]
  rfl

theorem mul_within_zero (hx : x.isFinite) (hy : y.isZero) : (x * y).Within .zero := by
  obtain ⟨b, hb⟩ := exists_within hx
  exact hb.mul (within_of_isZero hy) (by rw [units_zero, Nat.mul_zero, Nat.zero_mul])

theorem zero_add_of_within (h : x.Within .zero) : 0 + x = 0 := by
  obtain ⟨s, m, rfl, hm⟩ := h
  have hunits : m.units = 0 := Nat.eq_zero_of_le_zero hm
  have hsum : signed false Magnitude.zero.units + signed s m.units = 0 := by
    rw [hunits]
    cases s <;> rfl
  show (if signed false Magnitude.zero.units + signed s m.units = 0 then zero (false && s)
    else nearest _ _ 1) = zero false
  rw [if_pos hsum, Bool.false_and]

theorem zero_div_ofNat (hn : 0 < n) : 0 / ofNat n = 0 := by
  rcases ofNat_cases n with hinf | ⟨count, hcount⟩
  · rw [hinf]
    rfl
  · have hpos := Nat.lt_of_lt_of_le Magnitude.zero_lt_one (one_le_units_of_ofNat hn hcount)
    show zero false / _ = zero false
    rw [hcount, zero, finite_div_finite (by omega), units_zero, Nat.zero_mul,
      nearest_zero _ hpos]
    rfl

end Binary64

namespace Moments

variable {m : Moments Binary64} {v x : Binary64} {xs : List Binary64}

/-! ## The invariant -/

/-- The statistics of values that all equal `v`. -/
structure Flat (v : Binary64) (m : Moments Binary64) : Prop where
  bounded : m.Bounded v v
  spread : m.spread = 0

theorem flat_empty (v : Binary64) : (empty : Moments Binary64).Flat v :=
  ⟨bounded_empty v v, rfl⟩

theorem Flat.push (h : m.Flat v) (hv : v.isFinite) (hx : x.Equal v) : (m.push x).Flat v := by
  have hwidth : (v - v).isFinite := by
    rw [Binary64.sub_self_of_isFinite hv]
    rfl
  have hbounds : v ≤ x ∧ x ≤ v := hx.symm
  obtain ⟨hfinite, -⟩ := h.bounded.mean_between hwidth hbounds
  have hmean : v.Equal (m.push x).mean := h.bounded.mean_push hwidth hbounds
  have hdistance : (x - (m.push x).mean).isZero :=
    Binary64.isZero_sub_of_equal (hx.trans hmean) (Binary64.isFinite_of_bounds hv hv hbounds)
  refine ⟨h.bounded.push hwidth hbounds, ?_⟩
  rw [spread_push, h.spread]
  exact Binary64.zero_add_of_within (Binary64.mul_within_zero hfinite hdistance)

theorem flat_ofList (hv : v.isFinite) (hxs : ∀ x ∈ xs, x.Equal v) : (ofList xs).Flat v :=
  List.foldlRecOn xs push (flat_empty v) fun _ h x hx => h.push hv (hxs x hx)

theorem Flat.mean_equal (h : m.Flat v) (hcount : m.count ≠ 0) : m.mean.Equal v :=
  (h.bounded.mean hcount).symm

theorem Flat.stddev_eq_zero (h : m.Flat v) : m.stddev = 0 := by
  have hvariance : m.variance = 0 := by
    unfold variance
    split
    · rfl
    · next hcount =>
      rw [h.spread, Binary64.natCast_eq_ofNat]
      exact Binary64.zero_div_ofNat (Nat.pos_of_ne_zero hcount)
  rw [stddev, hvariance]
  exact Binary64.sqrt_of_units_eq_zero Binary64.units_zero

theorem Flat.keeps (h : m.Flat v) (sigma x : Binary64) : m.keeps sigma x := by
  have hzero : (0 : Binary64).isZero := rfl
  rw [Moments.keeps, h.spread, hzero, Bool.true_or]

end Moments

section Metrics
variable {xs : List Binary64} {v : Binary64}

theorem keptCount_of_equal (hv : v.isFinite) (hxs : ∀ x ∈ xs, x.Equal v) (sigma : Binary64) :
    keptCount sigma xs = xs.length :=
  List.countP_eq_length.2 fun x _ => (Moments.flat_ofList hv hxs).keeps sigma x

/-- Whatever calls filled a tally, a metric whose values are all equal to one finite value has this
value for its mean, no spread and no deviation, and keeps all of its values. Whatever the settings,
it is not the metric that a shortfall names, for any number of values that a counter can hold; and a
baseline has this value and no deviation for it. -/
theorem equal_values_never_fall_short (calls : List Recording) {name : String}
    (hne : valuesOf name (calls.flatMap Recording.observations) ≠ []) (hv : v.isFinite)
    (hequal : ∀ x ∈ valuesOf name (calls.flatMap Recording.observations), x.Equal v) :
    let t := calls.foldl Recording.apply .empty
    let xs := valuesOf name (calls.flatMap Recording.observations)
    (∃ s, t.get? name = some s ∧ s.values.toList = xs ∧ s.moments.mean.Equal v ∧
      s.moments.spread = 0 ∧ s.moments.stddev = 0 ∧ ∀ sigma, s.retained sigma = xs.length) ∧
    ∀ settings : ConvergenceSettings, settings.check = .ok () →
      (∀ short, Convergence.evaluate t settings = .ok (.shortfall short) →
        xs.length ≤ countLimit → short.name ≠ name) ∧
      ∀ b, Convergence.evaluate t settings = .ok (.converged b) →
        ∃ e, b.get? name = some e ∧ e.mean.Equal v ∧ e.stddev = 0 := by
  intro t xs
  have ht : t = Tally.ofObservations (calls.flatMap Recording.observations) :=
    Recording.foldl_apply calls
  have hflat : (Moments.ofList xs).Flat v := Moments.flat_ofList hv hequal
  have hmean := hflat.mean_equal (Moments.count_ofList_ne_zero hne)
  refine ⟨⟨.ofValues xs, ?_, ?_, ?_⟩, fun settings hs => ⟨fun short hshort hlimit => ?_,
    fun b hb => ?_⟩⟩
  · rw [ht, Tally.get?_ofObservations, if_neg hne]
  · rw [Samples.values_ofValues]
  · rw [Samples.moments_ofValues]
    refine ⟨hmean, hflat.spread, hflat.stddev_eq_zero, fun sigma => ?_⟩
    rw [retained_ofValues, keptCount_of_equal hv hequal]
  · rw [ht, evaluate_eq_shortfall_iff hs] at hshort
    rintro rfl
    have hrange := (ConvergenceSettings.check_eq_ok.1 hs).2
    exact hshort.falls (converged_of_keptCount_eq hrange hne hlimit
      (keptCount_of_equal hv hequal settings.sigma))
  · rw [ht, evaluate_eq_converged_iff hs, eq_baseline_ofObservations_iff] at hb
    refine ⟨_, (hb.2 name).trans (if_neg hne), hmean, hflat.stddev_eq_zero⟩

/-- Of zeros of both signs, recorded between values of a metric that falls short; at an acceptance
of one. -/
theorem zeros_never_fall_short :
    let settings : ConvergenceSettings := ⟨.ofNat 1, .ofNat 1⟩
    let calls : List Recording :=
      [.read (.ofText "a:-0\nb:0\na:0\nb:100\n"), .observe "b" 0, .observe "a" (.zero true)]
    settings.check = .ok () ∧
      (∃ s, (calls.foldl Recording.apply .empty : Tally).get? "a" = some s ∧
        s.moments.mean.Equal 0 ∧ s.moments.spread = 0 ∧ s.retained settings.sigma = 3) ∧
      ∃ short, Convergence.evaluate (calls.foldl Recording.apply .empty) settings =
        .ok (.shortfall short) ∧ short.name ≠ "a" := by
  intro settings calls
  have hs : settings.check = .ok () :=
    ConvergenceSettings.check_eq_ok.2 ⟨by decide +kernel, by decide +kernel⟩
  have hvalues : valuesOf "a" (calls.flatMap Recording.observations) =
      [.zero true, 0, .zero true] := by
    decide +kernel
  have hne : valuesOf "a" (calls.flatMap Recording.observations) ≠ [] := by
    rw [hvalues]
    exact List.cons_ne_nil _ _
  have hequal : ∀ x ∈ valuesOf "a" (calls.flatMap Recording.observations),
      x.Equal (0 : Binary64) := by
    rw [hvalues]
    decide +kernel
  obtain ⟨⟨s, hget, -, hmean, hspread, -, hretained⟩, hverdict⟩ :=
    equal_values_never_fall_short calls hne rfl hequal
  have hrun : (Convergence.evaluate (calls.foldl Recording.apply .empty) settings).toOption.bind
      Convergence.Verdict.shortfall? = some ⟨"b", 2, 3⟩ := by
    decide +kernel
  have heval := Convergence.Verdict.eq_of_shortfall?_eq_some hrun
  refine ⟨hs, ⟨s, hget, hmean, hspread, ?_⟩, _, heval, ?_⟩
  · rw [hretained, hvalues]
    rfl
  · refine (hverdict settings hs).1 _ heval ?_
    rw [hvalues]
    decide +kernel

end Metrics

end Ratchet
