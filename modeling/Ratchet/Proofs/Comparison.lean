import Ratchet.Proofs.Rounding

/-!
# Comparing doubles

A comparison is one of places on the number line, and what has no place compares with nothing. So a
value never lies below itself, and of two that are numbers one is at most the other
(`le_of_not_lt`).

Sums, differences and products of anything but finite values are not finite (`isFinite_of_add`,
`isFinite_of_sub`, `isFinite_of_mul`).

`0 ≤ x` fails of a value that is not a number, and most of what is wanted of a standard deviation is
that it does not lie below zero: that is `¬ x < 0`, which products keep (`not_mul_lt_zero`) and
which holds of every square root (`not_sqrt_lt_zero`).
-/

namespace Ratchet

theorem Magnitude.zero_lt_one : 0 < Magnitude.one := by
  unfold one
  exact zero_lt_two_pow _

namespace Binary64

variable {x y z : Binary64} {a b : Int}

theorem lt_iff : x < y ↔ ∃ a b, x.place? = some a ∧ y.place? = some b ∧ a < b := by
  show x.lt y = true ↔ _
  unfold lt
  cases x.place? <;> cases y.place? <;> simp

theorem le_iff : x ≤ y ↔ ∃ a b, x.place? = some a ∧ y.place? = some b ∧ a ≤ b := by
  show x.le y = true ↔ _
  unfold le
  cases x.place? <;> cases y.place? <;> simp

theorem lt_iff_of_place (hx : x.place? = some a) (hy : y.place? = some b) : x < y ↔ a < b := by
  simp [lt_iff, hx, hy]

theorem le_iff_of_place (hx : x.place? = some a) (hy : y.place? = some b) : x ≤ y ↔ a ≤ b := by
  simp [le_iff, hx, hy]

theorem isNan_eq_false_iff : x.isNan = false ↔ ∃ a, x.place? = some a := by
  cases x <;> simp [isNan, place?]

theorem place?_zero : (0 : Binary64).place? = some 0 := rfl

@[simp] theorem not_nan_lt (y : Binary64) : ¬ nan < y := by
  simp [lt_iff, place?]

@[simp] theorem not_lt_nan (x : Binary64) : ¬ x < nan := by
  simp [lt_iff, place?]

@[simp] theorem not_lt_self (x : Binary64) : ¬ x < x := by
  rw [lt_iff]
  rintro ⟨a, b, ha, hb, hlt⟩
  cases ha.symm.trans hb
  omega

theorem le_of_lt (h : x < y) : x ≤ y := by
  obtain ⟨a, b, ha, hb, hlt⟩ := lt_iff.1 h
  exact le_iff.2 ⟨a, b, ha, hb, by omega⟩

theorem lt_of_lt_of_le (h : x < y) (h' : y ≤ z) : x < z := by
  obtain ⟨a, b, ha, hb, hlt⟩ := lt_iff.1 h
  obtain ⟨b', c, hb', hc, hle⟩ := le_iff.1 h'
  cases hb.symm.trans hb'
  exact lt_iff.2 ⟨a, c, ha, hc, by omega⟩

theorem lt_of_le_of_lt (h : x ≤ y) (h' : y < z) : x < z := by
  obtain ⟨a, b, ha, hb, hle⟩ := le_iff.1 h
  obtain ⟨b', c, hb', hc, hlt⟩ := lt_iff.1 h'
  cases hb.symm.trans hb'
  exact lt_iff.2 ⟨a, c, ha, hc, by omega⟩

theorem lt_trans (h : x < y) (h' : y < z) : x < z := lt_of_lt_of_le h (le_of_lt h')

theorem le_trans (h : x ≤ y) (h' : y ≤ z) : x ≤ z := by
  obtain ⟨a, b, ha, hb, hle⟩ := le_iff.1 h
  obtain ⟨b', c, hb', hc, hle'⟩ := le_iff.1 h'
  cases hb.symm.trans hb'
  exact le_iff.2 ⟨a, c, ha, hc, by omega⟩

theorem le_of_not_lt (hx : x.isNan = false) (hy : y.isNan = false) (h : ¬ x < y) : y ≤ x := by
  obtain ⟨a, ha⟩ := isNan_eq_false_iff.1 hx
  obtain ⟨b, hb⟩ := isNan_eq_false_iff.1 hy
  rw [lt_iff_of_place ha hb] at h
  exact (le_iff_of_place hb ha).2 (by omega)

theorem lt_of_not_le (hx : x.isNan = false) (hy : y.isNan = false) (h : ¬ y ≤ x) : x < y := by
  obtain ⟨a, ha⟩ := isNan_eq_false_iff.1 hx
  obtain ⟨b, hb⟩ := isNan_eq_false_iff.1 hy
  rw [le_iff_of_place hb ha] at h
  exact (lt_iff_of_place ha hb).2 (by omega)

theorem le_self (h : x.isNan = false) : x ≤ x := le_of_not_lt h h (not_lt_self x)

theorem not_lt_of_le (h : x ≤ y) : ¬ y < x := fun hlt =>
  not_lt_self y (lt_of_lt_of_le hlt h)

theorem isNan_of_le (h : x ≤ y) : x.isNan = false := by
  obtain ⟨a, _, ha, -⟩ := le_iff.1 h
  exact isNan_eq_false_iff.2 ⟨a, ha⟩

theorem isNan_right_of_le (h : x ≤ y) : y.isNan = false := by
  obtain ⟨_, b, -, hb, -⟩ := le_iff.1 h
  exact isNan_eq_false_iff.2 ⟨b, hb⟩

/-! ## Range -/

theorem signed_bounds (s : Bool) (n : Nat) : -(n : Int) ≤ signed s n ∧ signed s n ≤ n := by
  unfold signed
  split <;> omega

theorem signed_true (n : Nat) : signed true n = -(n : Int) := rfl

theorem place_bounds (h : x.place? = some a) :
    -(Nat.pow 2 Format.double.limit : Int) ≤ a ∧ a ≤ (Nat.pow 2 Format.double.limit : Int) := by
  cases x with
  | nan => cases h
  | inf s =>
    cases h
    exact signed_bounds s _
  | finite s m =>
    cases h
    have hbounds := signed_bounds s m.units
    have hbounded : (m.units : Int) ≤ Nat.pow 2 Format.double.limit :=
      Int.le_of_lt (Int.ofNat_lt.2 m.bounded)
    exact ⟨Int.le_trans (Int.neg_le_neg hbounded) hbounds.1, Int.le_trans hbounds.2 hbounded⟩

theorem not_inf_lt (x : Binary64) : ¬ inf false < x := by
  rw [lt_iff]
  rintro ⟨a, b, ha, hb, hlt⟩
  cases ha
  exact absurd hlt (Int.not_lt.2 (place_bounds hb).2)

theorem not_lt_inf (x : Binary64) : ¬ x < inf true := by
  rw [lt_iff]
  rintro ⟨a, b, ha, hb, hlt⟩
  have hplace : signed true (Nat.pow 2 Format.double.limit) = b := Option.some.inj hb
  rw [signed_true] at hplace
  exact absurd (hplace ▸ hlt) (Int.not_lt.2 (place_bounds ha).1)

theorem le_inf (h : x.isNan = false) : x ≤ inf false := le_of_not_lt rfl h (not_inf_lt x)

theorem inf_le (h : x.isNan = false) : inf true ≤ x := le_of_not_lt h rfl (not_lt_inf x)

theorem isNan_of_isFinite (h : x.isFinite) : x.isNan = false := by
  cases x with
  | nan => cases h
  | inf => cases h
  | finite => rfl

theorem isFinite_of_isZero (h : x.isZero) : x.isFinite := by
  cases x with
  | nan => cases h
  | inf s =>
    have hplace : signed s (Nat.pow 2 Format.double.limit) = 0 := Option.some.inj (beq_iff_eq.1 h)
    have hpos := zero_lt_two_pow Format.double.limit
    unfold signed at hplace
    split at hplace <;> omega
  | finite => rfl

theorem isFinite_of_abs_lt (h : x.abs < z) : x.isFinite := by
  cases x with
  | nan => exact absurd h (not_nan_lt z)
  | inf s => exact absurd h (not_inf_lt z)
  | finite => rfl

/-! Nothing finite comes of anything else. -/

theorem isFinite_of_add (h : (x + y).isFinite) : x.isFinite ∧ y.isFinite := by
  cases x with
  | nan => cases h
  | inf s =>
    cases y with
    | nan => cases h
    | inf t => cases s <;> cases t <;> cases h
    | finite => cases h
  | finite s m =>
    cases y with
    | nan => cases h
    | inf => cases h
    | finite => exact ⟨rfl, rfl⟩

theorem isFinite_of_neg (h : (-x).isFinite) : x.isFinite := by
  cases x with
  | nan => cases h
  | inf => cases h
  | finite => rfl

theorem isFinite_of_sub (h : (x - y).isFinite) : x.isFinite ∧ y.isFinite :=
  ⟨(isFinite_of_add h).1, isFinite_of_neg (isFinite_of_add h).2⟩

/-! ## Zero -/

theorem sub_self_of_isFinite (h : x.isFinite) : x - x = 0 := by
  cases x with
  | nan => cases h
  | inf => cases h
  | finite s m =>
    have hsum : signed s m.units + signed (!s) m.units = 0 := by
      cases s with
      | false => exact Int.add_right_neg _
      | true => exact Int.add_left_neg _
    have hsign : (s && !s) = false := by cases s <;> rfl
    show (if signed s m.units + signed (!s) m.units = 0 then zero (s && !s)
      else nearest _ _ 1) = zero false
    rw [if_pos hsum, hsign]

theorem nearest_zero (s : Bool) {d : Nat} (hd : 0 < d) : nearest s 0 d = zero s := by
  have hzero := nearest_units s Magnitude.zero hd
  rwa [show Magnitude.zero.units = 0 from rfl, Nat.zero_mul] at hzero

theorem place?_zero_eq (s : Bool) : (zero s).place? = some 0 := by
  cases s <;> rfl

theorem not_zero_lt_zero (s : Bool) : ¬ zero s < 0 := by
  rw [lt_iff_of_place (place?_zero_eq s) place?_zero]
  exact Int.lt_irrefl 0

theorem not_pos_zero (s : Bool) : ¬ 0 < zero s := by
  rw [lt_iff_of_place place?_zero (place?_zero_eq s)]
  exact Int.lt_irrefl 0

theorem not_lt_zero_of_place (h : ∀ a, x.place? = some a → 0 ≤ a) : ¬ x < 0 := by
  rw [lt_iff]
  rintro ⟨a, b, ha, hb, hlt⟩
  cases place?_zero.symm.trans hb
  have hle := h a ha
  omega

theorem place_nonneg_of_not_lt (h : ¬ x < 0) (hx : x.place? = some a) : 0 ≤ a := by
  rw [lt_iff_of_place hx place?_zero] at h
  omega

theorem not_nearest_lt_zero (n d : Nat) : ¬ nearest false n d < 0 := by
  refine not_lt_zero_of_place fun a ha => ?_
  unfold nearest at ha
  cases hm : Magnitude.nearest? n d with
  | none =>
    rw [hm] at ha
    cases ha
    exact Int.natCast_nonneg _
  | some m =>
    rw [hm] at ha
    cases ha
    exact Int.natCast_nonneg _

/-- What does not lie below zero is not a number, or has a positive sign, or is the negative
zero. -/
theorem cases_of_not_lt_zero (h : ¬ x < 0) :
    x = nan ∨ x = inf false ∨ (∃ m, x = finite false m) ∨ x = zero true := by
  cases x with
  | nan => exact .inl rfl
  | inf s =>
    cases s with
    | false => exact .inr (.inl rfl)
    | true =>
      have hbelow : inf true < 0 := lt_iff.2 ⟨_, _, rfl, place?_zero,
        Int.neg_neg_of_pos (Int.ofNat_lt.2 (zero_lt_two_pow Format.double.limit))⟩
      exact absurd hbelow h
  | finite s m =>
    cases s with
    | false => exact .inr (.inr (.inl ⟨m, rfl⟩))
    | true =>
      have hplace : 0 ≤ -(m.units : Int) := place_nonneg_of_not_lt h rfl
      have hunits : m.units = 0 := by omega
      refine .inr (.inr (.inr ?_))
      cases m
      cases hunits
      rfl

theorem cases_of_zero_le (h : 0 ≤ x) :
    x = inf false ∨ (∃ m, x = finite false m) ∨ x = zero true := by
  rcases cases_of_not_lt_zero (not_lt_of_le h) with rfl | hcases
  · cases isNan_right_of_le h
  · exact hcases

theorem isFinite_of_lt (h : ¬ x < 0) (hlt : x < y) : x.isFinite := by
  rcases cases_of_not_lt_zero h with rfl | rfl | ⟨m, rfl⟩ | rfl
  · exact absurd hlt (not_nan_lt y)
  · exact absurd hlt (not_inf_lt y)
  · rfl
  · rfl

theorem mul_def (x y : Binary64) : x * y = mul x y := rfl

theorem mul_nan (x : Binary64) : x * nan = nan := by
  cases x <;> rfl

theorem isNan_right_of_mul (h : (x * y).isNan = false) : y.isNan = false := by
  cases y with
  | nan =>
    rw [mul_nan] at h
    cases h
  | inf => rfl
  | finite => rfl

theorem finite_mul_finite (s t : Bool) (m m' : Magnitude) :
    finite s m * finite t m' = nearest (s != t) (m.units * m'.units) Magnitude.one := by
  rw [mul_def, mul]

theorem inf_mul_finite (s t : Bool) (m : Magnitude) :
    inf s * finite t m = if m.units = 0 then nan else inf (s != t) := by
  rw [mul_def, mul]

theorem finite_mul_inf (s t : Bool) (m : Magnitude) :
    finite s m * inf t = if m.units = 0 then nan else inf (s != t) := by
  rw [mul_def, mul]

theorem isFinite_of_mul (h : (x * y).isFinite) : x.isFinite ∧ y.isFinite := by
  cases x with
  | nan => cases h
  | inf s =>
    cases y with
    | nan => cases h
    | inf => cases h
    | finite t m =>
      rw [inf_mul_finite] at h
      split at h <;> cases h
  | finite s m =>
    cases y with
    | nan => cases h
    | inf t =>
      rw [finite_mul_inf] at h
      split at h <;> cases h
    | finite => exact ⟨rfl, rfl⟩

theorem units_zero : Magnitude.zero.units = 0 := rfl

/-- A zero times anything is a zero or not a number. -/
theorem not_mul_zero_lt_zero (x : Binary64) (s : Bool) : ¬ x * zero s < 0 := by
  cases x with
  | nan => exact not_nan_lt 0
  | inf t =>
    rw [zero, inf_mul_finite, if_pos units_zero]
    exact not_nan_lt 0
  | finite t m =>
    rw [zero, finite_mul_finite, units_zero, Nat.mul_zero, nearest_zero _ Magnitude.zero_lt_one]
    exact not_zero_lt_zero _

theorem not_zero_mul_lt_zero (s : Bool) (y : Binary64) : ¬ zero s * y < 0 := by
  cases y with
  | nan => exact not_nan_lt 0
  | inf t =>
    rw [zero, finite_mul_inf, if_pos units_zero]
    exact not_nan_lt 0
  | finite t m =>
    rw [zero, finite_mul_finite, units_zero, Nat.zero_mul, nearest_zero _ Magnitude.zero_lt_one]
    exact not_zero_lt_zero _

theorem not_mul_lt_zero (hx : ¬ x < 0) (hy : ¬ y < 0) : ¬ x * y < 0 := by
  have hinf : ¬ inf false < 0 := not_inf_lt 0
  rcases cases_of_not_lt_zero hx with rfl | rfl | ⟨m, rfl⟩ | rfl
  · exact not_nan_lt 0
  · rcases cases_of_not_lt_zero hy with rfl | rfl | ⟨m, rfl⟩ | rfl
    · exact not_nan_lt 0
    · exact hinf
    · rw [inf_mul_finite]
      split
      · exact not_nan_lt 0
      · exact hinf
    · exact not_mul_zero_lt_zero _ true
  · rcases cases_of_not_lt_zero hy with rfl | rfl | ⟨m', rfl⟩ | rfl
    · exact not_nan_lt 0
    · rw [finite_mul_inf]
      split
      · exact not_nan_lt 0
      · exact hinf
    · rw [finite_mul_finite]
      exact not_nearest_lt_zero _ _
    · exact not_mul_zero_lt_zero _ true
  · exact not_zero_mul_lt_zero true y

theorem not_sqrt_lt_zero (x : Binary64) : ¬ x.sqrt < 0 := by
  cases x with
  | nan => exact not_nan_lt 0
  | inf s =>
    cases s with
    | false => exact not_inf_lt 0
    | true => exact not_nan_lt 0
  | finite s m =>
    simp only [sqrt]
    split
    · next h =>
      rw [Magnitude.eq_zero_of_units h]
      exact not_zero_lt_zero s
    · split
      · exact not_nan_lt 0
      · split
        · exact not_nearest_lt_zero _ _
        · exact not_nearest_lt_zero _ _

end Binary64

end Ratchet
