import Ratchet.Proofs.Approximation
import Ratchet.Proofs.Places

/-!
# Thresholds that are fractions

The share of the retained samples and a threshold of `k / m` are both rounded, and a comparison of
the two could come out differently from that of the fractions. It does not, as long as the product of
the denominators stays below `2 ^ 53`: fractions up to one that differ are then further apart than
the doubles there are from each other (`ofFraction_le_iff`), and equal ones round to the same double.
Counts below `2 ^ 53` are doubles themselves, so a share is a fraction rounded once
(`share_eq_ofFraction`).
-/

namespace Ratchet

namespace Binary64

variable {k m n d r t : Nat}

/-- The value nearest a fraction. -/
def ofFraction (n d : Nat) : Binary64 := nearest false (n * Magnitude.one) d

theorem exists_ofNat_of_lt (h : n < 2 ^ 53) :
    ∃ a, ofNat n = finite false a ∧ a.units = n * Magnitude.one := by
  have hfits : Fits Format.double.digits (n * Magnitude.one) := by
    unfold Magnitude.one
    exact ⟨n, _, h, rfl⟩
  have hbound : n * Magnitude.one < Nat.pow 2 Format.double.limit :=
    Nat.lt_of_lt_of_le (Nat.mul_lt_mul_of_pos_right h Magnitude.zero_lt_one) (by decide +kernel)
  refine ⟨⟨_, hfits, hbound⟩, ?_, rfl⟩
  have hround := nearest_units false ⟨_, hfits, hbound⟩ Nat.one_pos
  rwa [Nat.mul_one] at hround

theorem share_eq_ofFraction (hr : r < 2 ^ 53) (ht : t < 2 ^ 53) (hpos : 0 < t) :
    ofNat r / ofNat t = ofFraction r t := by
  obtain ⟨a, ha, haunits⟩ := exists_ofNat_of_lt hr
  obtain ⟨b, hb, hbunits⟩ := exists_ofNat_of_lt ht
  have hunits : 0 < t * Magnitude.one := Nat.mul_pos hpos Magnitude.zero_lt_one
  rw [ha, hb, finite_div_finite (by omega), bne_self_eq_false, haunits, hbunits, ofFraction]
  refine nearest_eq_of_ratio false hunits hpos ?_
  rw [Nat.mul_assoc (r * _), Nat.mul_comm Magnitude.one]

theorem units_power_zero : (Magnitude.power 0).units = Magnitude.one := by decide +kernel

/-- Below one there are 53 digits and no more than `2 ^ -53` to the last of them. -/
theorem lastUnit_mul_le (h : n < d) :
    lastUnit Format.double.digits (n * Magnitude.one) d * 2 ^ 53 ≤ Magnitude.one := by
  have hquotient : n * Magnitude.one / d < Magnitude.one := by
    rw [Nat.div_lt_iff_lt_mul (by omega), Nat.mul_comm Magnitude.one]
    exact Nat.mul_lt_mul_of_pos_right h Magnitude.zero_lt_one
  have hone : Magnitude.one =
      Nat.pow 2 (Format.double.digits + (Format.double.unit - Format.double.digits)) := by
    decide +kernel
  have hunit := lastUnit_le_of_lt (p := Format.double.digits) (by decide)
    (Nat.lt_of_lt_of_eq hquotient hone)
  have hsplit : Nat.pow 2 (Format.double.unit - Format.double.digits) * 2 ^ 53 = Magnitude.one := by
    decide +kernel
  generalize Nat.pow 2 (Format.double.unit - Format.double.digits) = u at hunit hsplit
  omega

open Magnitude (perOne)

theorem abs_roundTo_sub_le_of_le (h : n ≤ d) (hd : 0 < d) :
    |(roundTo Format.double.digits (n * Magnitude.one) d : ℚ) - n * perOne / d| ≤
      perOne / 2 ^ 54 := by
  have hpos := Magnitude.perOne_pos
  rcases Nat.lt_or_eq_of_le h with hlt | rfl
  · have hunit : (lastUnit Format.double.digits (n * Magnitude.one) d : ℚ) * 2 ^ 53 ≤ perOne := by
      rw [Magnitude.perOne_eq]
      exact_mod_cast lastUnit_mul_le hlt
    have hhalf := abs_roundTo_sub_le_half Format.double.digits (n * Magnitude.one) hd
    rw [Nat.cast_mul, ← Magnitude.perOne_eq] at hhalf
    refine hhalf.trans ?_
    linarith
  -- One is a double.
  · have hone := roundTo_of_fits (Magnitude.power 0).fits hd
    rw [units_power_zero, Nat.mul_comm] at hone
    have hn : (n : ℚ) ≠ 0 := Nat.cast_ne_zero.2 hd.ne'
    rw [hone, mul_div_cancel_left₀ _ hn, Magnitude.perOne_eq, sub_self, abs_zero,
      ← Magnitude.perOne_eq]
    positivity

/-- Fractions whose denominators multiply to less than `2 ^ 53` are further apart than both roundings
together go. -/
theorem roundTo_lt_roundTo (hrt : r ≤ t) (hkm : k ≤ m) (hm : 0 < m) (ht : 0 < t)
    (hsmall : m * t < 2 ^ 53) (h : r * m < k * t) :
    roundTo Format.double.digits (r * Magnitude.one) t <
      roundTo Format.double.digits (k * Magnitude.one) m := by
  have hshare := abs_sub_le_iff.1 (abs_roundTo_sub_le_of_le hrt ht)
  have hthreshold := abs_sub_le_iff.1 (abs_roundTo_sub_le_of_le hkm hm)
  have hgap : perOne / 2 ^ 53 < k * perOne / m - r * perOne / t := by
    have hmQ : (0 : ℚ) < m := Nat.cast_pos.2 hm
    have htQ : (0 : ℚ) < t := Nat.cast_pos.2 ht
    have hsmallQ : (m : ℚ) * t < 2 ^ 53 := by exact_mod_cast hsmall
    have hcross : (1 : ℚ) ≤ k * t - r * m := by
      rw [le_sub_iff_add_le]
      exact_mod_cast (by omega : 1 + r * m ≤ k * t)
    calc perOne / 2 ^ 53 < perOne / (m * t) :=
          div_lt_div_of_pos_left Magnitude.perOne_pos (mul_pos hmQ htQ) hsmallQ
      _ ≤ (k * t - r * m) * perOne / (m * t) := by
          refine div_le_div_of_nonneg_right ?_ (mul_pos hmQ htQ).le
          exact le_mul_of_one_le_left Magnitude.perOne_pos.le hcross
      _ = k * perOne / m - r * perOne / t := by
          field_simp
  have hlt : (roundTo Format.double.digits (r * Magnitude.one) t : ℚ) <
      roundTo Format.double.digits (k * Magnitude.one) m := by
    linarith
  exact_mod_cast hlt

theorem nearestUnits_of_le (h : n ≤ d) (hd : 0 < d) :
    nearestUnits (n * Magnitude.one) d =
      roundTo Format.double.digits (n * Magnitude.one) d := by
  have hone : nearestUnits (n * Magnitude.one) d ≤ Magnitude.one := by
    have hround := nearestUnits_units (.power 0) Nat.one_pos
    rw [units_power_zero] at hround
    refine Nat.le_trans (nearestUnits_mono hd Nat.one_pos ?_) (Nat.le_of_eq hround)
    rw [Nat.mul_one, Nat.mul_one, Nat.mul_comm Magnitude.one]
    exact Nat.mul_le_mul_right _ h
  have hbeyond := units_lt_beyond (.power 0)
  rw [units_power_zero] at hbeyond
  unfold nearestUnits at hone ⊢
  omega

/-- Rounding keeps the order of fractions up to one whose denominators multiply to less than
`2 ^ 53`, in both directions. -/
theorem ofFraction_le_iff (hrt : r ≤ t) (hkm : k ≤ m) (hm : 0 < m) (ht : 0 < t)
    (hsmall : m * t < 2 ^ 53) : ofFraction k m ≤ ofFraction r t ↔ k * t ≤ r * m := by
  constructor
  · intro h
    by_contra hlt
    have hround := roundTo_lt_roundTo hrt hkm hm ht hsmall (Nat.lt_of_not_le hlt)
    rw [ofFraction, ofFraction, nearest_le_nearest_iff, nearestUnits_of_le hkm hm,
      nearestUnits_of_le hrt ht] at h
    omega
  · intro h
    refine nearest_le_nearest hm ht ?_
    rw [Nat.mul_right_comm, Nat.mul_right_comm r]
    exact Nat.mul_le_mul_right _ h

end Binary64

/-! ## Acceptance -/

open Binary64 (ofFraction)

/-- A threshold of `k / m` is met by exactly those shares that are at least this fraction, as long
as the samples are not too many for `m`. With the default threshold these are the shares of 95 in a
hundred and more. -/
theorem meetsAcceptance_iff_of_fraction :
    (∀ k m total retained, 0 < m → k ≤ m → 0 < total → m * total < 2 ^ 53 → retained ≤ total →
      (meetsAcceptance retained total (ofFraction k m) ↔ k * total ≤ retained * m)) ∧
    ∀ total retained, 0 < total → 20 * total < 2 ^ 53 → retained ≤ total →
      (meetsAcceptance retained total ConvergenceSettings.default.acceptance ↔
        95 * total ≤ 100 * retained) := by
  have hfraction : ∀ k m total retained, 0 < m → k ≤ m → 0 < total → m * total < 2 ^ 53 →
      retained ≤ total →
      (meetsAcceptance retained total (ofFraction k m) ↔ k * total ≤ retained * m) := by
    intro k m total retained hm hkm htotal hsmall hretained
    have hle : total ≤ m * total := Nat.le_mul_of_pos_left total hm
    unfold meetsAcceptance
    rw [if_neg htotal.ne', Binary64.share_eq_ofFraction (by omega) (by omega) htotal]
    exact Binary64.ofFraction_le_iff hretained hkm hm htotal hsmall
  refine ⟨hfraction, fun total retained htotal hsmall hretained => ?_⟩
  have hdefault : ConvergenceSettings.default.acceptance = ofFraction 19 20 := by decide +kernel
  rw [hdefault, hfraction 19 20 total retained (by decide) (by decide) htotal hsmall hretained]
  omega

/-- A third of the samples, and one sample too few among almost as many as there may be. -/
theorem meetsAcceptance_at_boundary :
    meetsAcceptance 13 39 (ofFraction 1 3) = true ∧
      meetsAcceptance 427841964600188 450359962737040 ConvergenceSettings.default.acceptance =
        true ∧
      meetsAcceptance 427841964600187 450359962737040 ConvergenceSettings.default.acceptance =
        false := by
  obtain ⟨hfraction, hdefault⟩ := meetsAcceptance_iff_of_fraction
  refine ⟨?_, ?_, Bool.eq_false_iff.2 fun h => ?_⟩
  · exact (hfraction 1 3 39 13 (by decide) (by decide) (by decide) (by decide) (by decide)).2
      (by decide)
  · exact (hdefault _ _ (by decide) (by decide) (by decide)).2 (by decide)
  · have hle := (hdefault _ _ (by decide) (by decide) (by decide)).1 h
    exact absurd hle (by decide)

end Ratchet
