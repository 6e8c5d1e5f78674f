/-!
# Rounding to a binary grid

A binary format keeps a fixed number of significant binary digits above a least unit. Everything
here counts in least units, so a magnitude is a whole number and the exact result of an operation
is a quotient `n / d` of whole numbers.

* `nearestEven n d` is the whole number nearest `n / d`; a half goes to the even neighbour.
* `Fits p m` says that `m` has at most `p` significant binary digits.
* `roundTo p n d` is the nearest such number to `n / d`, ties to the even last digit. Below `2 ^ p`
  units every whole number fits, which is how the formats thin out gradually near zero.
* `Format.round` rounds a quotient given in ones, and has no result where the format overflows.
-/

namespace Ratchet

/-- The whole number nearest `n / d`, a half going to the even neighbour. -/
def nearestEven (n d : Nat) : Nat :=
  if 2 * (n % d) < d then n / d
  else if d < 2 * (n % d) then n / d + 1
  else n / d + n / d % 2

/-- At most `p` significant binary digits. -/
def Fits (p m : Nat) : Prop := ∃ k e, k < Nat.pow 2 p ∧ m = k * Nat.pow 2 e

/-- The exponent of the last digit kept of a number whose whole part is `q`. -/
def lastDigit (p q : Nat) : Nat := q.log2 + 1 - p

/-- The nearest number to `n / d` with `p` significant binary digits. -/
def roundTo (p n d : Nat) : Nat :=
  let digit := Nat.pow 2 (lastDigit p (n / d))
  nearestEven n (d * digit) * digit

/-- A binary format: how many significant digits, where the least unit lies, where it overflows. -/
structure Format where
  /-- Significant binary digits. -/
  digits : Nat
  /-- The least unit is `2 ^ -unit`. -/
  unit : Nat
  /-- Magnitudes of `2 ^ limit` least units and more are out of range. -/
  limit : Nat

def Format.double : Format := ⟨53, 1074, 2098⟩

def Format.single : Format := ⟨24, 149, 277⟩

/-- The magnitude nearest `n / d`, in least units, unless it is out of range. -/
def Format.round (f : Format) (n d : Nat) : Option Nat :=
  let m := roundTo f.digits (n * Nat.pow 2 f.unit) d
  if m < Nat.pow 2 f.limit then some m else none

theorem nearestEven_le_of_lt {n d c : Nat} (h : n < d * c) : nearestEven n d ≤ c := by
  have hq : n / d < c := Nat.div_lt_of_lt_mul h
  unfold nearestEven
  split
  · omega
  · split <;> omega

theorem nearestEven_mul (q : Nat) {d : Nat} (hd : 0 < d) : nearestEven (q * d) d = q := by
  have hm : q * d % d = 0 := Nat.mul_mod_left q d
  have hq : q * d / d = q := Nat.mul_div_cancel q hd
  unfold nearestEven
  rw [hm, hq, if_pos (by omega)]

theorem zero_lt_two_pow (p : Nat) : 0 < Nat.pow 2 p := Nat.two_pow_pos p

theorem Fits.zero (p : Nat) : Fits p 0 := ⟨0, 0, zero_lt_two_pow p, by simp⟩

theorem lt_two_pow_lastDigit (p q : Nat) : q < Nat.pow 2 (lastDigit p q + p) :=
  Nat.lt_of_lt_of_le Nat.lt_log2_self (Nat.pow_le_pow_right (by omega) (by unfold lastDigit; omega))

theorem nearestEven_le_two_pow (p n d : Nat) :
    nearestEven n (d * Nat.pow 2 (lastDigit p (n / d))) ≤ Nat.pow 2 p := by
  rcases Nat.eq_zero_or_pos d with rfl | hd
  · have : 1 ≤ Nat.pow 2 p := Nat.one_le_two_pow
    unfold nearestEven
    simp only [Nat.zero_mul, Nat.div_zero, Nat.mod_zero]
    split
    · omega
    · split <;> omega
  · apply nearestEven_le_of_lt
    have := lt_two_pow_lastDigit p (n / d)
    rwa [Nat.div_lt_iff_lt_mul hd, Nat.pow_eq, Nat.pow_add, Nat.mul_comm, ← Nat.mul_assoc] at this

theorem fits_roundTo {p : Nat} (hp : 0 < p) (n d : Nat) : Fits p (roundTo p n d) := by
  rcases Nat.lt_or_eq_of_le (nearestEven_le_two_pow p n d) with h | h
  · exact ⟨_, _, h, rfl⟩
  · refine ⟨1, p + lastDigit p (n / d), Nat.one_lt_two_pow (by omega), ?_⟩
    rw [roundTo, h, Nat.one_mul, Nat.pow_eq, Nat.pow_eq, Nat.pow_eq, Nat.pow_add]

end Ratchet
