import Ratchet.Convergence
import Ratchet.Proofs.Comparison

/-!
# Shares of counts

The share of some samples among all of them is a quotient of two rounded counts. Rounding is
monotone, so the share of a part is at most one (`exists_share_eq_finite`) and that of the whole is
one (`share_self`), as long as the whole is a count that a machine word holds; the share of none is
never positive (`not_zero_lt_share_zero`). The next double below one is far enough away that a
hundred times a smaller share rounds to less than a hundred (`mul_hundred_lt`).
-/

namespace Ratchet

/-- The counters of the gate are machine words and hold what lies below. -/
def countLimit : Nat := Nat.pow 2 64

namespace Binary64

variable {n d n' d' r t : Nat} {s s' : Bool} {m m' : Magnitude} {x : Binary64}

theorem units_of_nearest (h : nearest s n d = finite s' m) :
    m.units = roundTo Format.double.digits n d := by
  unfold nearest at h
  cases hm : Magnitude.nearest? n d with
  | none =>
    rw [hm] at h
    cases h
  | some k =>
    rw [hm] at h
    cases h
    unfold Magnitude.nearest? at hm
    simp only at hm
    split at hm
    · cases hm
      rfl
    · cases hm

theorem exists_nearest_of_roundTo_le (h : roundTo Format.double.digits n d ≤ m'.units)
    (s : Bool) :
    ∃ m, nearest s n d = finite s m ∧ m.units = roundTo Format.double.digits n d := by
  have hbound : roundTo Format.double.digits n d < Nat.pow 2 Format.double.limit :=
    Nat.lt_of_le_of_lt h m'.bounded
  refine ⟨⟨_, fits_roundTo (by decide) n d, hbound⟩, ?_, rfl⟩
  rw [nearest_eq_finite_iff, Magnitude.nearest?, dif_pos hbound]

/-- A quotient rounds to a finite value if a larger one does, and to no more. -/
theorem exists_nearest_of_le (hd : 0 < d) (hd' : 0 < d') (h : n * d' ≤ n' * d)
    (hround : nearest s' n' d' = finite s' m') (s : Bool) :
    ∃ m, nearest s n d = finite s m ∧ m.units ≤ m'.units := by
  have hle : roundTo Format.double.digits n d ≤ m'.units := by
    rw [units_of_nearest hround]
    exact roundTo_mono (by decide) hd hd' h
  obtain ⟨m, hm, hunits⟩ := exists_nearest_of_roundTo_le hle s
  exact ⟨m, hm, hunits ▸ hle⟩

theorem exists_ofNat_of_le (h : n ≤ n') (hround : ofNat n' = finite false m') :
    ∃ m, ofNat n = finite false m ∧ m.units ≤ m'.units := by
  refine exists_nearest_of_le Nat.one_pos Nat.one_pos ?_ hround false
  rw [Nat.mul_one, Nat.mul_one]
  exact Nat.mul_le_mul_right _ h

theorem exists_ofNat_eq_finite (h : n ≤ countLimit) : ∃ m, ofNat n = finite false m := by
  have hlimit : (ofNat countLimit).isFinite = true := by decide +kernel
  cases hround : ofNat countLimit with
  | nan => rw [hround] at hlimit; cases hlimit
  | inf s => rw [hround] at hlimit; cases hlimit
  | finite s m =>
    have hsign : (ofNat countLimit).isNegative = false := by decide +kernel
    rw [hround] at hsign
    cases hsign
    obtain ⟨m', hm', -⟩ := exists_ofNat_of_le h hround
    exact ⟨m', hm'⟩

theorem place?_ofNat_one : (ofNat 1).place? = some (Magnitude.one : Int) := by decide +kernel

theorem place?_ofNat_hundred : (ofNat 100).place? = some ((100 * Magnitude.one : Nat) : Int) := by
  decide +kernel

theorem units_of_place? (h : x = finite false m) (hx : x.place? = some (n : Int)) :
    m.units = n := by
  subst h
  exact Int.ofNat.inj (Option.some.inj hx)

theorem one_le_units_of_ofNat (ht : 0 < t) (hround : ofNat t = finite false m) :
    Magnitude.one ≤ m.units := by
  obtain ⟨m', hm', hle⟩ := exists_ofNat_of_le ht hround
  rwa [units_of_place? hm' place?_ofNat_one] at hle

theorem finite_div_finite (h : m'.units ≠ 0) :
    finite s m / finite s' m' = nearest (s != s') (m.units * Magnitude.one) m'.units := by
  show div _ _ = _
  rw [div, if_neg h]

theorem not_zero_lt_share_zero (y : Binary64) : ¬ 0 < ofNat 0 / y := by
  have hzero : ofNat 0 = finite false .zero := by
    rw [ofNat, Nat.zero_mul]
    exact nearest_zero false Nat.one_pos
  rw [hzero]
  cases y with
  | nan => exact not_lt_nan 0
  | inf s => exact not_pos_zero _
  | finite s m =>
    by_cases h : m.units = 0
    · have hnan : finite false .zero / finite s m = nan := by
        show div _ _ = _
        rw [div, if_pos h, if_pos units_zero]
      rw [hnan]
      exact not_lt_nan 0
    · rw [finite_div_finite h, units_zero, Nat.zero_mul, nearest_zero _ (Nat.pos_of_ne_zero h)]
      exact not_pos_zero _

theorem share_self (ht : 0 < t) (hlimit : t ≤ countLimit) : ofNat t / ofNat t = ofNat 1 := by
  obtain ⟨m, hm⟩ := exists_ofNat_eq_finite hlimit
  have hunits := Nat.lt_of_lt_of_le Magnitude.zero_lt_one (one_le_units_of_ofNat ht hm)
  rw [hm, finite_div_finite (by omega)]
  refine nearest_eq_of_ratio false hunits Nat.one_pos ?_
  rw [Nat.mul_one, Nat.one_mul, Nat.mul_comm]

theorem exists_share_eq_finite (h : r ≤ t) (ht : 0 < t) (hlimit : t ≤ countLimit) :
    ∃ m, ofNat r / ofNat t = finite false m ∧ m.units ≤ Magnitude.one := by
  obtain ⟨whole, hwhole⟩ := exists_ofNat_eq_finite hlimit
  obtain ⟨part, hpart, hle⟩ := exists_ofNat_of_le h hwhole
  have hunits := Nat.lt_of_lt_of_le Magnitude.zero_lt_one (one_le_units_of_ofNat ht hwhole)
  have hone : 1 ≤ countLimit := by decide +kernel
  obtain ⟨one, hround⟩ := exists_ofNat_eq_finite hone
  have hratio : part.units * Magnitude.one * 1 ≤ 1 * Magnitude.one * whole.units := by
    rw [Nat.mul_one, Nat.one_mul, Nat.mul_comm]
    exact Nat.mul_le_mul_left _ hle
  obtain ⟨m, hm, hunit⟩ := exists_nearest_of_le hunits Nat.one_pos hratio hround false
  rw [units_of_place? hround place?_ofNat_one] at hunit
  rw [hpart, hwhole, finite_div_finite (by omega), bne_self_eq_false]
  exact ⟨m, hm, hunit⟩

/-- The units of the greatest double below one, all of whose digits are set. -/
def unitsBelowOne : Nat :=
  (Nat.pow 2 Format.double.digits - 1) *
    Nat.pow 2 (Format.double.unit - Format.double.digits)

theorem units_le_of_lt_one (h : m.units < Magnitude.one) : m.units ≤ unitsBelowOne := by
  have hunit : Format.double.unit =
      Format.double.digits + (Format.double.unit - Format.double.digits) := by decide
  unfold Magnitude.one at h
  rw [hunit] at h
  exact m.fits.le_of_lt h

theorem mul_hundred_lt (h : finite false m < ofNat 1) :
    (finite false m * ofNat 100).isFinite ∧ 0 ≤ finite false m * ofNat 100 ∧
      finite false m * ofNat 100 < ofNat 100 := by
  have hlimit : 100 ≤ countLimit := by decide +kernel
  obtain ⟨hundred, hhundred⟩ := exists_ofNat_eq_finite hlimit
  have hunits := units_of_place? hhundred place?_ofNat_hundred
  rw [lt_iff_of_place rfl place?_ofNat_one] at h
  have hbelow := units_le_of_lt_one (Int.ofNat_lt.1 h)
  have htop : roundTo Format.double.digits (unitsBelowOne * (100 * Magnitude.one)) Magnitude.one <
      100 * Magnitude.one := by decide +kernel
  have hratio : m.units * hundred.units * Magnitude.one ≤
      unitsBelowOne * (100 * Magnitude.one) * Magnitude.one := by
    rw [hunits]
    exact Nat.mul_le_mul_right _ (Nat.mul_le_mul_right _ hbelow)
  have hround : roundTo Format.double.digits (m.units * hundred.units) Magnitude.one <
      hundred.units := by
    refine Nat.lt_of_le_of_lt (roundTo_mono (by decide) Magnitude.zero_lt_one
      Magnitude.zero_lt_one hratio) ?_
    rw [hunits]
    exact htop
  obtain ⟨m', hm', hunits'⟩ := exists_nearest_of_roundTo_le (Nat.le_of_lt hround) false
  have hproduct : finite false m * ofNat 100 = finite false m' := by
    rw [hhundred, finite_mul_finite]
    exact hm'
  rw [hproduct]
  refine ⟨rfl, (le_iff_of_place place?_zero rfl).2 (Int.natCast_nonneg _), ?_⟩
  rw [hhundred, lt_iff_of_place rfl rfl]
  exact Int.ofNat_lt.2 (hunits' ▸ hround)

end Binary64

end Ratchet
