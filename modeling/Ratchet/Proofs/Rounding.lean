import Ratchet.Number.Binary64

/-!
# Rounding depends on the value alone

A quotient may be written with any positive denominator: scaling both sides changes neither where
the quotient is rounded nor the result (`roundTo_eq_of_ratio`). A magnitude that fits the format is
its own rounding (`roundTo_of_fits`), so a `Binary64` comes back from every quotient that equals it
(`Binary64.nearest_units`). And a quotient that is no smaller does not round to less
(`roundTo_mono`).
-/

namespace Ratchet

theorem nearestEven_mul_mul {c : Nat} (hc : 0 < c) (n d : Nat) :
    nearestEven (c * n) (c * d) = nearestEven n d := by
  unfold nearestEven
  rw [Nat.mul_div_mul_left n d hc, Nat.mul_mod_mul_left]
  have hlow : 2 * (c * (n % d)) < c * d ↔ 2 * (n % d) < d := by
    rw [Nat.mul_left_comm]
    exact Nat.mul_lt_mul_left hc
  have hhigh : c * d < 2 * (c * (n % d)) ↔ d < 2 * (n % d) := by
    rw [Nat.mul_left_comm]
    exact Nat.mul_lt_mul_left hc
  simp only [hlow, hhigh]

variable {n d n' d' : Nat}

theorem nearestEven_eq_of_ratio (hd : 0 < d) (hd' : 0 < d') (h : n * d' = n' * d) :
    nearestEven n d = nearestEven n' d' := by
  calc nearestEven n d = nearestEven (d' * n) (d' * d) := (nearestEven_mul_mul hd' n d).symm
    _ = nearestEven (d * n') (d * d') := by
      rw [Nat.mul_comm d' n, h, Nat.mul_comm n' d, Nat.mul_comm d' d]
    _ = nearestEven n' d' := nearestEven_mul_mul hd n' d'

theorem div_eq_of_ratio (hd : 0 < d) (hd' : 0 < d') (h : n * d' = n' * d) : n / d = n' / d' := by
  calc n / d = n * d' / (d * d') := (Nat.mul_div_mul_right n d hd').symm
    _ = n' * d / (d' * d) := by rw [h, Nat.mul_comm d d']
    _ = n' / d' := Nat.mul_div_mul_right n' d' hd

theorem roundTo_eq_of_ratio (p : Nat) (hd : 0 < d) (hd' : 0 < d') (h : n * d' = n' * d) :
    roundTo p n d = roundTo p n' d' := by
  unfold roundTo
  rw [div_eq_of_ratio hd hd' h]
  have hdigit := zero_lt_two_pow (lastDigit p (n' / d'))
  have hratio : n * (d' * Nat.pow 2 (lastDigit p (n' / d'))) =
      n' * (d * Nat.pow 2 (lastDigit p (n' / d'))) := by
    rw [← Nat.mul_assoc, h, Nat.mul_assoc]
  simp only [nearestEven_eq_of_ratio (Nat.mul_pos hd hdigit) (Nat.mul_pos hd' hdigit) hratio]

theorem Magnitude.nearest?_eq_of_ratio (hd : 0 < d) (hd' : 0 < d') (h : n * d' = n' * d) :
    Magnitude.nearest? n d = Magnitude.nearest? n' d' := by
  unfold Magnitude.nearest?
  simp only [roundTo_eq_of_ratio _ hd hd' h]

theorem Binary64.nearest_eq_of_ratio (neg : Bool) (hd : 0 < d) (hd' : 0 < d')
    (h : n * d' = n' * d) : Binary64.nearest neg n d = Binary64.nearest neg n' d' := by
  unfold Binary64.nearest
  rw [Magnitude.nearest?_eq_of_ratio hd hd' h]

theorem lastDigit_le_of_lt {p e u : Nat} (hu : u ≠ 0) (h : u < Nat.pow 2 (p + e)) :
    lastDigit p u ≤ e := by
  have hlog : u.log2 < p + e := (Nat.log2_lt hu).2 h
  unfold lastDigit
  omega

theorem Fits.two_pow_lastDigit_dvd {p u : Nat} (h : Fits p u) : Nat.pow 2 (lastDigit p u) ∣ u := by
  obtain ⟨k, e, hk, hu⟩ := h
  by_cases hzero : u = 0
  · rw [hzero]
    exact Nat.dvd_zero _
  · have hlt : u < Nat.pow 2 (p + e) := by
      have hsum : Nat.pow 2 (p + e) = Nat.pow 2 p * Nat.pow 2 e := Nat.pow_add 2 p e
      rw [hu, hsum]
      exact Nat.mul_lt_mul_of_pos_right hk (zero_lt_two_pow e)
    exact Nat.dvd_trans (Nat.pow_dvd_pow 2 (lastDigit_le_of_lt hzero hlt))
      ⟨k, by rw [hu, Nat.mul_comm]; rfl⟩

theorem roundTo_of_fits {p u : Nat} (h : Fits p u) (hd : 0 < d) : roundTo p (u * d) d = u := by
  obtain ⟨c, hc⟩ := h.two_pow_lastDigit_dvd
  have hdigit := zero_lt_two_pow (lastDigit p u)
  unfold roundTo
  rw [Nat.mul_div_cancel u hd]
  have hmul : u * d = c * (d * Nat.pow 2 (lastDigit p u)) := by
    conv => lhs; rw [hc]
    rw [Nat.mul_comm _ c, Nat.mul_assoc, Nat.mul_comm d]
  simp only [hmul, nearestEven_mul c (Nat.mul_pos hd hdigit)]
  rw [Nat.mul_comm, ← hc]

theorem Magnitude.eq_zero_of_units {m : Magnitude} (h : m.units = 0) : m = zero := by
  cases m
  cases h
  rfl

theorem Magnitude.nearest?_units (m : Magnitude) (hd : 0 < d) :
    Magnitude.nearest? (m.units * d) d = some m := by
  unfold Magnitude.nearest?
  simp only [roundTo_of_fits m.fits hd]
  exact dif_pos m.bounded

theorem Binary64.nearest_units (neg : Bool) (m : Magnitude) (hd : 0 < d) :
    Binary64.nearest neg (m.units * d) d = .finite neg m := by
  unfold Binary64.nearest
  rw [Magnitude.nearest?_units m hd]

theorem Binary64.nearest_eq_finite_iff {neg : Bool} {m : Magnitude} :
    Binary64.nearest neg n d = .finite neg m ↔ Magnitude.nearest? n d = some m := by
  unfold Binary64.nearest
  cases Magnitude.nearest? n d <;> simp

/-! ## Order -/

theorem nearestEven_le_nearestEven_of_le {a b d : Nat} (h : a ≤ b) :
    nearestEven a d ≤ nearestEven b d := by
  have hquot : a / d ≤ b / d := Nat.div_le_div_right h
  have hdiv : d * (a / d) + a % d = a := Nat.div_add_mod a d
  have hdiv' : d * (b / d) + b % d = b := Nat.div_add_mod b d
  unfold nearestEven
  rcases Nat.lt_or_eq_of_le hquot with hlt | heq
  · repeat' split
    all_goals omega
  -- The whole parts agree, and so does what a half would round to.
  · have hrest : a % d ≤ b % d := by
      rw [heq] at hdiv
      omega
    rw [heq]
    repeat' split
    all_goals omega

theorem nearestEven_mono (hd : 0 < d) (hd' : 0 < d') (h : n * d' ≤ n' * d) :
    nearestEven n d ≤ nearestEven n' d' := by
  rw [← nearestEven_mul_mul hd' n d, ← nearestEven_mul_mul hd n' d', Nat.mul_comm d' d,
    Nat.mul_comm d' n, Nat.mul_comm d n']
  exact nearestEven_le_nearestEven_of_le h

theorem le_nearestEven_of_mul_le {c : Nat} (hd : 0 < d) (h : c * d ≤ n) : c ≤ nearestEven n d := by
  have hle := nearestEven_le_nearestEven_of_le (d := d) h
  rwa [nearestEven_mul c hd] at hle

theorem div_le_div_of_ratio (hd : 0 < d) (hd' : 0 < d') (h : n * d' ≤ n' * d) :
    n / d ≤ n' / d' := by
  rw [← Nat.mul_div_mul_right n d hd', ← Nat.mul_div_mul_right n' d' hd, Nat.mul_comm d' d]
  exact Nat.div_le_div_right h

theorem lastDigit_le_lastDigit (p : Nat) {q q' : Nat} (h : q ≤ q') :
    lastDigit p q ≤ lastDigit p q' := by
  have hlog : q.log2 ≤ q'.log2 := by
    rcases Nat.eq_zero_or_pos q with rfl | hq
    · exact Nat.zero_le _
    · rw [Nat.le_log2 (by omega)]
      exact Nat.le_trans (Nat.log2_self_le (by omega)) h
  unfold lastDigit
  omega

/-- Above the least unit a last digit is only there with all `p` digits. -/
theorem two_pow_le_of_lastDigit_pos {p q : Nat} (hp : 0 < p) (h : 0 < lastDigit p q) :
    Nat.pow 2 (p - 1) * Nat.pow 2 (lastDigit p q) ≤ q := by
  unfold lastDigit at h
  have hq : q ≠ 0 := by
    rintro rfl
    rw [Nat.log2_zero] at h
    omega
  have hlog : p - 1 + lastDigit p q = q.log2 := by
    unfold lastDigit
    omega
  have hsum : Nat.pow 2 (p - 1) * Nat.pow 2 (lastDigit p q) =
      Nat.pow 2 (p - 1 + lastDigit p q) := (Nat.pow_add 2 (p - 1) (lastDigit p q)).symm
  rw [hsum, hlog]
  exact Nat.log2_self_le hq

theorem roundTo_mono {p : Nat} (hp : 0 < p) (hd : 0 < d) (hd' : 0 < d') (h : n * d' ≤ n' * d) :
    roundTo p n d ≤ roundTo p n' d' := by
  have hquot := div_le_div_of_ratio hd hd' h
  have hdigit := zero_lt_two_pow (lastDigit p (n / d))
  have hdigit' := zero_lt_two_pow (lastDigit p (n' / d'))
  rcases Nat.lt_or_eq_of_le (lastDigit_le_lastDigit p hquot) with hlt | heq
  -- The smaller one rounds to at most all its digits and one, the larger one has a digit more.
  · have hbelow : roundTo p n d ≤ Nat.pow 2 p * Nat.pow 2 (lastDigit p (n / d)) :=
      Nat.mul_le_mul_right _ (nearestEven_le_two_pow p n d)
    have hstep : Nat.pow 2 p * Nat.pow 2 (lastDigit p (n / d)) ≤
        Nat.pow 2 (p - 1) * Nat.pow 2 (lastDigit p (n' / d')) := by
      have hadd (a b : Nat) : Nat.pow 2 a * Nat.pow 2 b = Nat.pow 2 (a + b) :=
        (Nat.pow_add 2 a b).symm
      rw [hadd, hadd]
      exact Nat.pow_le_pow_right (by omega) (by omega)
    have hwhole := two_pow_le_of_lastDigit_pos hp (Nat.zero_lt_of_lt hlt)
    have habove : Nat.pow 2 (p - 1) * Nat.pow 2 (lastDigit p (n' / d')) ≤ roundTo p n' d' := by
      refine Nat.mul_le_mul_right _ (le_nearestEven_of_mul_le (Nat.mul_pos hd' hdigit') ?_)
      calc Nat.pow 2 (p - 1) * (d' * Nat.pow 2 (lastDigit p (n' / d')))
          = Nat.pow 2 (p - 1) * Nat.pow 2 (lastDigit p (n' / d')) * d' := by
            rw [Nat.mul_comm d', Nat.mul_assoc]
        _ ≤ n' / d' * d' := Nat.mul_le_mul_right d' hwhole
        _ ≤ n' := Nat.div_mul_le_self n' d'
    exact Nat.le_trans hbelow (Nat.le_trans hstep habove)
  · unfold roundTo
    rw [heq]
    refine Nat.mul_le_mul_right _ (nearestEven_mono (Nat.mul_pos hd hdigit')
      (Nat.mul_pos hd' hdigit') ?_)
    rw [← Nat.mul_assoc, ← Nat.mul_assoc]
    exact Nat.mul_le_mul_right _ h

/-- What fits in `p` digits and lies below a power of two lies below it by a unit of its binade. -/
theorem Fits.le_of_lt {p e u : Nat} (h : Fits p u) (hlt : u < Nat.pow 2 (p + e)) :
    u ≤ (Nat.pow 2 p - 1) * Nat.pow 2 e := by
  obtain ⟨k, j, hk, rfl⟩ := h
  rcases Nat.le_total j e with hje | hej
  · exact Nat.mul_le_mul (by omega) (Nat.pow_le_pow_right (by omega) hje)
  · obtain ⟨i, rfl⟩ := Nat.exists_eq_add_of_le hej
    have hadd (a b : Nat) : Nat.pow 2 (a + b) = Nat.pow 2 a * Nat.pow 2 b := Nat.pow_add 2 a b
    have hpos := zero_lt_two_pow e
    have hunit : k * Nat.pow 2 i < Nat.pow 2 p := by
      rw [hadd, hadd, Nat.mul_comm (Nat.pow 2 e), ← Nat.mul_assoc] at hlt
      exact Nat.lt_of_mul_lt_mul_right hlt
    rw [hadd, Nat.mul_comm (Nat.pow 2 e), ← Nat.mul_assoc]
    exact Nat.mul_le_mul_right _ (by omega)

end Ratchet
