import Mathlib.Analysis.Real.Sqrt
import Mathlib.Data.Rat.BigOperators
import Ratchet.Proofs.ExactMoments

/-!
# How many values a band keeps, in exact arithmetic

A value that the band does not keep has a squared distance to the mean of at least `sigma ^ 2`
variances. All squared distances together are the spread, the number of values times the variance,
so no more than one of `sigma ^ 2` values is that far away: this is Chebyshev's inequality
(`rejectedCount_mul_le`). It says which settings never find a metric too scattered.

The test has both sides squared and multiplied by the count, so that it needs neither a root nor a
quotient. With the root it is the one of the gate (`retains_iff_abs_lt`). The values are rational,
and `sigma` is of any ordered field.
-/

namespace Ratchet

variable {K : Type} [Field K] [LinearOrder K]
variable {m : Moments ℚ} {sigma : K} {xs : List ℚ} {v : ℚ}

/-- Whether the band keeps a value. Without spread every value is kept. -/
def Moments.Retains (m : Moments ℚ) (sigma : K) (v : ℚ) : Prop :=
  m.spread = 0 ∨ (((v - m.mean) ^ 2 * m.count : ℚ) : K) < sigma ^ 2 * (m.spread : K)

instance (m : Moments ℚ) (sigma : K) (v : ℚ) : Decidable (m.Retains sigma v) :=
  inferInstanceAs (Decidable (_ ∨ _))

/-- With spread, the band is as wide as `sigma` standard deviations on either side. -/
theorem retains_iff_abs_lt {sigma : ℝ} (hsigma : 0 < sigma) (hcount : m.count ≠ 0)
    (hspread : m.spread ≠ 0) :
    m.Retains sigma v ↔ |(v : ℝ) - m.mean| < sigma * √(m.variance : ℝ) := by
  have hpos : (0 : ℝ) < m.count := Nat.cast_pos.2 (Nat.pos_of_ne_zero hcount)
  have hvariance : (m.variance : ℝ) = m.spread / m.count := by
    rw [Moments.variance, if_neg hcount]
    push_cast
    rfl
  have hband : sigma * √(m.variance : ℝ) = √(sigma ^ 2 * m.spread / m.count) := by
    rw [hvariance, mul_div_assoc, Real.sqrt_mul (sq_nonneg sigma), Real.sqrt_sq hsigma.le]
  rw [hband, Real.lt_sqrt (abs_nonneg _), sq_abs, lt_div_iff₀ hpos, Moments.Retains,
    or_iff_right hspread]
  push_cast
  rfl

/-- How many values the band around their own mean keeps. -/
def retainedCount (sigma : K) (xs : List ℚ) : Nat :=
  xs.countP fun v => (Moments.ofList xs).Retains sigma v

/-- How many it does not keep. -/
def rejectedCount (sigma : K) (xs : List ℚ) : Nat :=
  xs.countP fun v => ¬ (Moments.ofList xs).Retains sigma v

theorem retainedCount_add_rejectedCount (sigma : K) (xs : List ℚ) :
    retainedCount sigma xs + rejectedCount sigma xs = xs.length := by
  have hsplit := List.length_eq_countP_add_countP (l := xs)
    fun v => decide ((Moments.ofList xs).Retains sigma v)
  simp only [decide_eq_true_eq] at hsplit
  exact hsplit.symm

variable [IsStrictOrderedRing K]

/-- As many times a bound as there are values of at least that size are no more than all of them
together. -/
theorem countP_mul_le_sum {f : ℚ → K} {bound : K} {far : ℚ → Bool} (hnonneg : ∀ v, 0 ≤ f v)
    (hfar : ∀ v, far v → bound ≤ f v) (xs : List ℚ) :
    (xs.countP far : K) * bound ≤ (xs.map f).sum := by
  have hbound : ∀ d ∈ (xs.filter far).map f, bound ≤ d :=
    List.forall_mem_map.2 fun v hv => hfar v (List.mem_filter.1 hv).2
  have hsum : ∀ d ∈ xs.map f, 0 ≤ d := List.forall_mem_map.2 fun v _ => hnonneg v
  calc (xs.countP far : K) * bound = ((xs.filter far).map f).length • bound := by
        rw [List.length_map, List.countP_eq_length_filter, nsmul_eq_mul]
    _ ≤ ((xs.filter far).map f).sum := List.card_nsmul_le_sum _ _ hbound
    _ ≤ (xs.map f).sum := (List.filter_sublist.map f).sum_le_sum hsum

theorem sum_scaled_squares (xs : List ℚ) (c n : ℚ) :
    (xs.map fun v => (((v - c) ^ 2 * n : ℚ) : K)).sum = (squares c xs : K) * (n : K) := by
  rw [← Rat.cast_mul, squares, ← List.sum_map_mul_right, Rat.cast_list_sum, List.map_map]
  rfl

/-- Every rejected value has a share of at least `sigma ^ 2` in as many spreads as there are
values. -/
theorem rejectedCount_mul_le (sigma : K) (xs : List ℚ) :
    (rejectedCount sigma xs : K) * sigma ^ 2 ≤ xs.length := by
  have hdescribes := Moments.describes_ofList xs
  unfold rejectedCount
  generalize Moments.ofList xs = m at hdescribes
  by_cases hspread : m.spread = 0
  · have hnone : (xs.countP fun v => ¬ m.Retains sigma v) = 0 :=
      List.countP_eq_zero.2 fun v _ => by simp [Moments.Retains, hspread]
    rw [hnone, Nat.cast_zero, zero_mul]
    exact Nat.cast_nonneg _
  · have hpos : (0 : K) < m.spread := by
      rw [Rat.cast_pos, hdescribes.spread]
      rw [hdescribes.spread] at hspread
      exact (squares_nonneg _ _).lt_of_ne' hspread
    have hnonneg (v : ℚ) : (0 : K) ≤ (((v - m.mean) ^ 2 * m.count : ℚ) : K) :=
      Rat.cast_nonneg.2 (mul_nonneg (sq_nonneg _) (Nat.cast_nonneg _))
    have hfar (v : ℚ) (hv : decide (¬ m.Retains sigma v)) :
        sigma ^ 2 * (m.spread : K) ≤ (((v - m.mean) ^ 2 * m.count : ℚ) : K) :=
      not_lt.1 (not_or.1 (of_decide_eq_true hv)).2
    have hsum := countP_mul_le_sum hnonneg hfar xs
    rw [sum_scaled_squares, ← hdescribes.spread, hdescribes.count, Rat.cast_natCast, ← mul_assoc,
      mul_comm (m.spread : K)] at hsum
    exact le_of_mul_le_mul_right hsum hpos

/-- The values of a metric, in the order of their arrival. -/
def exactValuesOf (name : String) (input : List (String × ℚ)) : List ℚ :=
  (input.filter (·.1 = name)).map (·.2)

/-- The decision of the gate in exact arithmetic: of every metric, the kept values are a large
enough share of all. -/
def ExactlyConverges (sigma acceptance : K) (input : List (String × ℚ)) : Prop :=
  ∀ name, exactValuesOf name input ≠ [] →
    acceptance ≤ (retainedCount sigma (exactValuesOf name input) : K) /
      ((exactValuesOf name input).length : K)

theorem le_retained_share (hsigma : 0 < sigma) (hne : xs ≠ []) :
    1 - 1 / sigma ^ 2 ≤ (retainedCount sigma xs : K) / (xs.length : K) := by
  have hlength : (0 : K) < xs.length := Nat.cast_pos.2 (List.length_pos_iff.2 hne)
  have hsquare : 0 < sigma ^ 2 := pow_pos hsigma 2
  have hrejected : (rejectedCount sigma xs : K) ≤ xs.length / sigma ^ 2 :=
    (le_div_iff₀ hsquare).2 (rejectedCount_mul_le sigma xs)
  have hsplit : (retainedCount sigma xs : K) + rejectedCount sigma xs = xs.length := by
    exact_mod_cast retainedCount_add_rejectedCount sigma xs
  rw [le_div_iff₀ hlength]
  calc (1 - 1 / sigma ^ 2) * (xs.length : K)
      = (xs.length : K) - xs.length / sigma ^ 2 := by ring
    _ ≤ (xs.length : K) - rejectedCount sigma xs := sub_le_sub_left hrejected _
    _ = (retainedCount sigma xs : K) := by rw [← hsplit, add_sub_cancel_right]

/-- Of any values, those that the band rejects are at most one in `sigma ^ 2`. At a `sigma` of three
eight of nine values are kept, and an acceptance of at most `1 - 1 / sigma ^ 2` is met by every
metric of every input. -/
theorem rejected_share_le (hsigma : 0 < sigma) :
    (∀ xs, (rejectedCount sigma xs : K) * sigma ^ 2 ≤ xs.length) ∧
      (∀ xs, 8 * xs.length ≤ 9 * retainedCount (3 : K) xs) ∧
      ∀ acceptance, acceptance ≤ 1 - 1 / sigma ^ 2 →
        ∀ input, ExactlyConverges sigma acceptance input := by
  refine ⟨rejectedCount_mul_le sigma, fun xs => ?_, fun acceptance haccept input name hne => ?_⟩
  · have hrejected : rejectedCount (3 : K) xs * 3 ^ 2 ≤ xs.length := by
      exact_mod_cast rejectedCount_mul_le (3 : K) xs
    have hsplit := retainedCount_add_rejectedCount (3 : K) xs
    omega
  · exact haccept.trans (le_retained_share hsigma hne)

/-- A value two standard deviations from the mean is rejected at a `sigma` of two. Four of five are
kept, and an acceptance of three quarters is met. -/
theorem rejected_share_of_outlier :
    let xs : List ℚ := [0, 0, 0, 0, 10]
    rejectedCount (2 : ℚ) xs = 1 ∧ (rejectedCount (2 : ℚ) xs : ℚ) * 2 ^ 2 ≤ xs.length ∧
      ExactlyConverges (2 : ℚ) (3 / 4)
        [("a", 0), ("a", 0), ("b", 5), ("a", 0), ("a", 0), ("a", 10)] := by
  intro xs
  have hcount : rejectedCount (2 : ℚ) xs = 1 := by
    norm_num [xs, rejectedCount, Moments.Retains, Moments.ofList, Moments.push, Moments.empty]
  obtain ⟨hrejected, -, hconverges⟩ := rejected_share_le (two_pos : (0 : ℚ) < 2)
  exact ⟨hcount, hrejected xs, hconverges (3 / 4) (by norm_num) _⟩

end Ratchet
