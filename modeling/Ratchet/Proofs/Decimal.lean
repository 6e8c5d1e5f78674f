import Ratchet.Proofs.Rounding
import Ratchet.Number.Shortest

/-!
# Decimals of one value

Writing zeros behind the last digit of a decimal changes what it is written as and not what it is
(`Decimal.padded`): it rounds to the same value (`Binary64.ofDecimal_padded`). The shortest decimal
of a magnitude rounds to it (`Magnitude.ofDecimal_shortest`), whichever grid it was found on: every
candidate of a grid is one that was seen to read back, and the exact expansion always does.
-/

namespace Ratchet

theorem ofDigits_digits (n : Nat) : ofDigits (digits n) = n := Nat.ofDigitChars_ten_toDigits

theorem toString_injective {m n : Nat} (h : toString m = toString n) : m = n := by
  rw [Nat.toString_eq_ofList_toDigits, Nat.toString_eq_ofList_toDigits] at h
  have hdigits : digits m = digits n := String.ofList_injective h
  rw [← ofDigits_digits m, hdigits, ofDigits_digits]

theorem isDigit_of_mem_digits {n : Nat} {c : Char} (h : c ∈ digits n) : c.isDigit = true :=
  Nat.isDigit_of_mem_toDigits (by omega) (by omega) h

theorem digits_ne_nil (n : Nat) : digits n ≠ [] := Nat.toDigits_ne_nil

theorem head?_digits_ne {n : Nat} (hn : n ≠ 0) : (digits n).head? ≠ some '0' := by
  induction n using Nat.strongRecOn with
  | ind n ih =>
    unfold digits at ih ⊢
    by_cases hsmall : n < 10
    · have hall : ∀ n < 10, n ≠ 0 → some n.digitChar ≠ some '0' := by decide
      rw [Nat.toDigits_of_lt_base hsmall]
      exact hall n hsmall hn
    · have hsome := List.isSome_head?.2 (Nat.toDigits_ne_nil (n := n / 10) (b := 10))
      rw [Nat.toDigits_of_base_le (by omega) (by omega), List.head?_append,
        Option.or_of_isSome hsome]
      exact ih (n / 10) (by omega) (by omega)

theorem digitCount_le_iff {n k : Nat} (hk : 0 < k) : digitCount n ≤ k ↔ n < Nat.pow 10 k :=
  Nat.length_toDigits_le_iff (by omega) hk

theorem lt_digitCount_iff {n k : Nat} (hk : 0 < k) : k < digitCount n ↔ Nat.pow 10 k ≤ n := by
  rw [← Nat.not_le, digitCount_le_iff hk, Nat.not_lt]

/-- Stated for `Nat.pow`, so that its use computes no large power. -/
theorem zero_lt_pow {b : Nat} (hb : 0 < b) (k : Nat) : 0 < Nat.pow b k := Nat.pow_pos hb

theorem ofDigits_append_zeros (cs : List Char) (j : Nat) :
    ofDigits (cs ++ List.replicate j '0') = ofDigits cs * Nat.pow 10 j := by
  have happend := Nat.ofDigitChars_append (b := 10) (l := cs) (m := List.replicate j '0') 0
  rw [Nat.ofDigitChars_replicate_zero, Nat.mul_comm] at happend
  exact happend

theorem ofDigits_zeros_append (j : Nat) (cs : List Char) :
    ofDigits (List.replicate j '0' ++ cs) = ofDigits cs := by
  have happend := Nat.ofDigitChars_append (b := 10) (l := List.replicate j '0') (m := cs) 0
  rw [Nat.ofDigitChars_replicate_zero, Nat.mul_zero] at happend
  exact happend

theorem digitCount_mul_pow {c : Nat} (hc : 0 < c) (j : Nat) :
    digitCount (c * Nat.pow 10 j) = digitCount c + j := by
  induction j with
  | zero => rw [show Nat.pow 10 0 = 1 from rfl, Nat.mul_one, Nat.add_zero]
  | succ j ih =>
    have hpos : 0 < c * Nat.pow 10 j := Nat.mul_pos hc (zero_lt_pow (by omega) _)
    have hstep : c * Nat.pow 10 (j + 1) = 10 * (c * Nat.pow 10 j) + 0 := by
      show c * (Nat.pow 10 j * 10) = 10 * (c * Nat.pow 10 j) + 0
      rw [← Nat.mul_assoc, Nat.mul_comm, Nat.add_zero]
    have hlast := Nat.toDigits_append_toDigits (b := 10) (d := 0) (by omega) hpos (by omega)
    unfold digitCount digits at ih ⊢
    rw [hstep, ← hlast, List.length_append, ih, Nat.toDigits_zero]
    rfl

namespace Decimal

/-- The same number with so many more zeros behind its last digit. -/
def padded (x : Decimal) (j : Nat) : Decimal := ⟨x.coeff * Nat.pow 10 j, x.exponent - j⟩

theorem padded_zero (x : Decimal) : x.padded 0 = x := by
  unfold padded
  rw [show Nat.pow 10 0 = 1 from rfl, Nat.mul_one]
  simp

theorem coeff_padded_eq_zero_iff {x : Decimal} {j : Nat} :
    (x.padded j).coeff = 0 ↔ x.coeff = 0 := by
  have hpow : Nat.pow 10 j ≠ 0 := Nat.pos_iff_ne_zero.1 (zero_lt_pow (by omega) _)
  show x.coeff * Nat.pow 10 j = 0 ↔ x.coeff = 0
  rw [Nat.mul_eq_zero, or_iff_left hpow]

theorem size_padded {x : Decimal} (hx : 0 < x.coeff) (j : Nat) : (x.padded j).size = x.size := by
  show (digitCount (x.coeff * Nat.pow 10 j) : Int) + (x.exponent - j) =
    digitCount x.coeff + x.exponent
  rw [digitCount_mul_pow hx]
  omega

theorem ratio_padded (x : Decimal) (j : Nat) :
    (x.padded j).coeff * Nat.pow 10 (x.padded j).exponent.toNat *
        Nat.pow 10 (-x.exponent).toNat =
      x.coeff * Nat.pow 10 x.exponent.toNat * Nat.pow 10 (-(x.padded j).exponent).toNat := by
  have hexp : j + (x.exponent - j).toNat + (-x.exponent).toNat =
      x.exponent.toNat + (-(x.exponent - j)).toNat := by omega
  show x.coeff * Nat.pow 10 j * Nat.pow 10 (x.exponent - j).toNat *
      Nat.pow 10 (-x.exponent).toNat =
    x.coeff * Nat.pow 10 x.exponent.toNat * Nat.pow 10 (-(x.exponent - j)).toNat
  have hadd (a b : Nat) : Nat.pow 10 a * Nat.pow 10 b = Nat.pow 10 (a + b) :=
    (Nat.pow_add 10 a b).symm
  rw [Nat.mul_assoc x.coeff, hadd, Nat.mul_assoc x.coeff, hadd, Nat.mul_assoc x.coeff, hadd, hexp]

end Decimal

namespace Binary64

/-! ## Rounding a decimal -/

variable {x : Decimal} (neg : Bool)

theorem ofDecimal_of_tiny (hx : x.coeff = 0 ∨ x.size < -Decimal.horizon) :
    ofDecimal neg x = zero neg := by
  unfold ofDecimal Decimal.reach
  rw [if_pos hx]

theorem ofDecimal_of_huge (hx : x.coeff ≠ 0) (hsize : Decimal.horizon < x.size) :
    ofDecimal neg x = inf neg := by
  have hnot : ¬(x.coeff = 0 ∨ x.size < -Decimal.horizon) := by
    unfold Decimal.horizon at hsize ⊢
    omega
  unfold ofDecimal Decimal.reach
  rw [if_neg hnot, if_pos hsize]

theorem ofDecimal_of_quotient (hx : x.coeff ≠ 0) (hlow : -Decimal.horizon ≤ x.size)
    (hhigh : x.size ≤ Decimal.horizon) :
    ofDecimal neg x = nearest neg (x.coeff * Nat.pow 10 x.exponent.toNat * Magnitude.one)
      (Nat.pow 10 (-x.exponent).toNat) := by
  unfold ofDecimal Decimal.reach
  rw [if_neg (by omega), if_neg (by omega)]

theorem ofDecimal_padded (x : Decimal) (j : Nat) :
    ofDecimal neg (x.padded j) = ofDecimal neg x := by
  by_cases hx : x.coeff = 0
  · rw [ofDecimal_of_tiny neg (.inl hx),
      ofDecimal_of_tiny neg (.inl (Decimal.coeff_padded_eq_zero_iff.2 hx))]
  · have hpadded : (x.padded j).coeff ≠ 0 := mt Decimal.coeff_padded_eq_zero_iff.1 hx
    have hsize : (x.padded j).size = x.size := Decimal.size_padded (Nat.pos_of_ne_zero hx) j
    by_cases hlow : x.size < -Decimal.horizon
    · rw [ofDecimal_of_tiny neg (.inr hlow), ofDecimal_of_tiny neg (.inr (hsize ▸ hlow))]
    · by_cases hhigh : Decimal.horizon < x.size
      · rw [ofDecimal_of_huge neg hx hhigh, ofDecimal_of_huge neg hpadded (hsize ▸ hhigh)]
      · rw [ofDecimal_of_quotient neg hx (by omega) (by omega),
          ofDecimal_of_quotient neg hpadded (by omega) (by omega)]
        refine nearest_eq_of_ratio neg (zero_lt_pow (by omega) _) (zero_lt_pow (by omega) _) ?_
        rw [Nat.mul_right_comm, Decimal.ratio_padded, Nat.mul_right_comm]

/-- What a decimal rounds to under one sign says what it rounds to under the other. -/
theorem ofDecimal_eq_finite {m : Magnitude} (h : ofDecimal false x = finite false m) :
    ofDecimal neg x = finite neg m := by
  unfold ofDecimal at h ⊢
  split at h
  · cases h
    rfl
  · cases h
  · exact nearest_eq_finite_iff.2 (nearest_eq_finite_iff.1 h)

end Binary64

/-! ## The shortest decimal -/

namespace Magnitude

theorem readsBack_iff {m : Magnitude} {x : Decimal} :
    m.readsBack x = true ↔ Binary64.ofDecimal false x = .finite false m := decide_eq_true_iff

theorem coeff_expansion (m : Magnitude) :
    m.expansion.coeff = m.units * Nat.pow 5 Format.double.unit := rfl

theorem exponent_expansion (m : Magnitude) :
    m.expansion.exponent = -(Format.double.unit : Int) := rfl

theorem size_expansion {m : Magnitude} (hm : m.units ≠ 0) :
    -Decimal.horizon ≤ m.expansion.size ∧ m.expansion.size ≤ Decimal.horizon := by
  have hlow : Nat.pow 10 (Format.double.unit - 400) ≤ Nat.pow 5 Format.double.unit := by
    decide +kernel
  have hhigh : Nat.pow 2 Format.double.limit * Nat.pow 5 Format.double.unit ≤
      Nat.pow 10 (Format.double.unit + 400) := by decide +kernel
  have hatLeast : Format.double.unit - 400 < digitCount m.expansion.coeff := by
    rw [lt_digitCount_iff (by decide), coeff_expansion]
    exact Nat.le_trans hlow (Nat.le_mul_of_pos_left _ (Nat.pos_of_ne_zero hm))
  have hatMost : digitCount m.expansion.coeff ≤ Format.double.unit + 400 := by
    rw [digitCount_le_iff (by omega), coeff_expansion]
    exact Nat.lt_of_lt_of_le
      (Nat.mul_lt_mul_of_pos_right m.bounded (zero_lt_pow (by omega) _)) hhigh
  show -400 ≤ (digitCount m.expansion.coeff : Int) + -(Format.double.unit : Int) ∧
    (digitCount m.expansion.coeff : Int) + -(Format.double.unit : Int) ≤ 400
  omega

theorem value_expansion (m : Magnitude) :
    m.expansion.coeff * Nat.pow 10 m.expansion.exponent.toNat * one =
      m.units * Nat.pow 10 (-m.expansion.exponent).toNat := by
  have hpow : Nat.pow 5 Format.double.unit *
      Nat.pow 10 (-(Format.double.unit : Int)).toNat * one =
        Nat.pow 10 (- -(Format.double.unit : Int)).toNat := by decide +kernel
  rw [coeff_expansion, exponent_expansion, ← hpow, Nat.mul_assoc m.units, Nat.mul_assoc m.units]

theorem ofDecimal_expansion (m : Magnitude) :
    Binary64.ofDecimal false m.expansion = .finite false m := by
  by_cases hm : m.units = 0
  · have hcoeff : m.expansion.coeff = 0 := by rw [coeff_expansion, hm, Nat.zero_mul]
    rw [Binary64.ofDecimal_of_tiny false (.inl hcoeff), eq_zero_of_units hm]
    rfl
  · have hfive : Nat.pow 5 Format.double.unit ≠ 0 := Nat.pos_iff_ne_zero.1 (zero_lt_pow (by omega) _)
    have hcoeff : m.expansion.coeff ≠ 0 := Nat.mul_ne_zero hm hfive
    obtain ⟨hlow, hhigh⟩ := size_expansion hm
    rw [Binary64.ofDecimal_of_quotient false hcoeff hlow hhigh, value_expansion]
    exact Binary64.nearest_units false m (zero_lt_pow (by omega) _)

/-- A grid gives one of the two neighbours of the value, and one that reads back. -/
theorem readsBack_of_onGrid? {tie : Tie} {m : Magnitude} {k : Int} {x : Decimal}
    (h : m.onGrid? tie k = some x) : m.readsBack x = true := by
  unfold onGrid? at h
  dsimp only at h
  split at h
  · cases h
  · next hbelow _ =>
    cases h
    exact hbelow
  · next _ habove =>
    cases h
    exact habove
  -- Both neighbours read back, and the distance or the tie decides.
  · next hbelow habove =>
    split at h
    · cases h
      exact hbelow
    · split at h
      · cases h
        exact habove
      · cases tie with
        | up =>
          cases h
          exact habove
        | even =>
          dsimp only at h
          cases h
          split
          · exact hbelow
          · exact habove

theorem ofDecimal_shortest (tie : Tie) (m : Magnitude) :
    Binary64.ofDecimal false (m.shortest tie) = .finite false m := by
  unfold shortest
  cases hfound : (List.range 19).findSome? fun (i : Nat) =>
      m.onGrid? tie (leadingExponent m.units one + 1 - (i : Int)) with
  | none =>
    simp only [hfound]
    exact ofDecimal_expansion m
  | some x =>
    obtain ⟨i, -, hgrid⟩ := List.exists_of_findSome?_eq_some hfound
    simp only [hfound]
    exact readsBack_iff.1 (readsBack_of_onGrid? hgrid)

end Magnitude

end Ratchet
