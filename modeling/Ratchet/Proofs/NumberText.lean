import Ratchet.Proofs.Numeral
import Ratchet.Number.Layout

/-!
# Number texts read back

Whatever a layout does with the digits of a decimal, the grammar reads the same number out of them:
the decimal itself, or the decimal with zeros behind it where the layout filled up to the point
(`readDecimal_decimal`). A number is written with digits that round back to it, so its text reads
as the number itself in every layout (`read?_number`), with the sign of a zero and the infinities.
Being readable, it holds no white space and no colon, whatever the layout.
-/

namespace Ratchet.Layout

open Numeral

variable (l : Layout)

theorem padded_eq {c j : Nat} {k e : Int} (h : e = k - j) :
    (⟨c * Nat.pow 10 j, e⟩ : Decimal) = Decimal.padded ⟨c, k⟩ j := by
  unfold Decimal.padded
  rw [h]

theorem readDecimal_zeros (c : Nat) {k : Int} (hk : 0 ≤ k) :
    ∃ j, readDecimal (l.positionalText (digits c) k) = some (Decimal.padded ⟨c, k⟩ j) := by
  have hwhole : AllDigits (digits c ++ List.replicate k.toNat '0') :=
    (allDigits_digits c).append (allDigits_zeros _)
  have hne : digits c ++ List.replicate k.toNat '0' ≠ [] := by
    simp [digits_ne_nil]
  unfold positionalText
  rw [if_pos hk]
  by_cases hpoint : l.keepsPoint = true
  · refine ⟨k.toNat + 1, ?_⟩
    have hread := readDecimal_point hwhole (allDigits_zeros 1) (.inl hne) digitsEnd_nil
    have hzeros : digits c ++ List.replicate k.toNat '0' ++ List.replicate 1 '0' =
        digits c ++ List.replicate (k.toNat + 1) '0' := by
      rw [List.append_assoc, List.replicate_append_replicate]
    rw [hzeros, ofDigits_append_zeros, ofDigits_digits] at hread
    rw [if_pos hpoint]
    refine hread.trans (congrArg some (padded_eq ?_))
    simp only [List.length_replicate]
    omega
  · refine ⟨k.toNat, ?_⟩
    have hread := readDecimal_whole hwhole hne digitsEnd_nil (by simp)
    rw [ofDigits_append_zeros, ofDigits_digits] at hread
    rw [if_neg hpoint]
    refine hread.trans (congrArg some (padded_eq ?_))
    omega

theorem readDecimal_inside (c : Nat) {k : Int} (hk : k < 0) (hin : (-k).toNat < (digits c).length) :
    readDecimal (l.positionalText (digits c) k) = some ⟨c, k⟩ := by
  let cut := (digits c).length - (-k).toNat
  have hw : AllDigits ((digits c).take cut) := (allDigits_digits c).take cut
  have hf : AllDigits ((digits c).drop cut) := (allDigits_digits c).drop cut
  have hne : (digits c).take cut ≠ [] := by
    simp [digits_ne_nil, cut]
    omega
  have hread := readDecimal_point hw hf (.inl hne) digitsEnd_nil
  rw [List.take_append_drop, ofDigits_digits, List.append_nil] at hread
  unfold positionalText
  rw [if_neg (by omega), if_pos hin, hread]
  simp [readExponent_nil]
  omega

theorem readDecimal_leading (c : Nat) {k : Int} (hk : k < 0)
    (hout : ¬(-k).toNat < (digits c).length) :
    readDecimal (l.positionalText (digits c) k) = some ⟨c, k⟩ := by
  have hread := readDecimal_point (allDigits_zeros 1)
    ((allDigits_zeros ((-k).toNat - (digits c).length)).append (allDigits_digits c))
    (.inl (by simp)) digitsEnd_nil
  rw [ofDigits_zeros_append, ofDigits_zeros_append, ofDigits_digits, List.append_nil] at hread
  unfold positionalText
  rw [if_neg (by omega), if_neg hout]
  refine hread.trans (congrArg some ?_)
  simp
  omega

theorem readDecimal_positionalText (c : Nat) (k : Int) :
    ∃ j, readDecimal (l.positionalText (digits c) k) = some (Decimal.padded ⟨c, k⟩ j) := by
  by_cases hk : 0 ≤ k
  · exact readDecimal_zeros l c hk
  · refine ⟨0, ?_⟩
    rw [Decimal.padded_zero]
    by_cases hin : (-k).toNat < (digits c).length
    · exact readDecimal_inside l c (by omega) hin
    · exact readDecimal_leading l c (by omega) hin

theorem signed_natAbs (z : Int) : Binary64.signed (decide (z < 0)) z.natAbs = z := by
  unfold Binary64.signed
  split
  · next h =>
    have hneg : z < 0 := of_decide_eq_true h
    omega
  · next h =>
    have hpos : ¬z < 0 := fun hz => h (decide_eq_true hz)
    omega

theorem exponentSign (lead : Int) :
    ExponentSign (decide (lead < 0))
      (if lead < 0 then ['-'] else if l.signsExponent then ['+'] else []) := by
  by_cases hlead : lead < 0
  · simpa [hlead] using .minus
  · cases l.signsExponent
    · simpa [hlead] using .none
    · simpa [hlead] using .plus

theorem readDecimal_exponentText (c : Nat) (k : Int) :
    readDecimal (l.exponentText (digits c) (k + (digits c).length - 1)) = some ⟨c, k⟩ := by
  have hlength : 0 < (digits c).length := List.length_pos_iff.2 (digits_ne_nil c)
  have hsign := readExponent_e (exponentSign l (k + (digits c).length - 1))
    (k + (digits c).length - 1).natAbs
  rw [signed_natAbs] at hsign
  have hend (s : List Char) : DigitsEnd ('e' :: s) := digitsEnd_cons rfl
  unfold exponentText
  by_cases hone : (digits c).length ≤ 1
  · have hread (s : List Char) :=
      readDecimal_whole (allDigits_digits c) (digits_ne_nil c) (hend s) (by simp)
    simp only [hone, ↓reduceIte, List.take_of_length_le hone, List.append_nil, List.append_assoc,
      List.cons_append, hread, hsign, ofDigits_digits, Option.map_some, Option.some.injEq,
      Decimal.mk.injEq, true_and]
    omega
  · have hne : (digits c).take 1 ≠ [] := by simp [digits_ne_nil]
    have hread (s : List Char) := readDecimal_point ((allDigits_digits c).take 1)
      ((allDigits_digits c).drop 1) (.inl hne) (hend s)
    simp only [hone, ↓reduceIte, List.append_assoc, List.cons_append, hread, hsign,
      List.take_append_drop, ofDigits_digits, Option.map_some, Option.some.injEq,
      Decimal.mk.injEq, true_and, List.length_drop]
    omega

/-! ## Numbers -/

theorem readDecimal_decimal (x : Decimal) :
    ∃ j, readDecimal (l.decimal x) = some (x.padded j) := by
  unfold decimal
  by_cases hpos : l.isPositional (x.exponent + (digits x.coeff).length - 1) = true
  · simp only [if_pos hpos]
    exact readDecimal_positionalText l x.coeff x.exponent
  · simp only [if_neg hpos]
    exact ⟨0, by rw [readDecimal_exponentText, Decimal.padded_zero]⟩

theorem splitSign_signText {s : List Char} {x : Decimal} (h : readDecimal s = some x)
    (neg : Bool) : splitSign (signText neg ++ s) = (neg, s) := by
  cases neg with
  | true => rfl
  | false =>
    obtain ⟨c, rest, rfl, hc⟩ := head_of_readDecimal h
    rcases hc with hc | rfl
    · exact splitSign_of_isDigit hc
    · rfl

theorem read?_number (x : Binary64) : Binary64.read? (l.number x) = some x := by
  cases x with
  | nan => rfl
  | inf neg => cases neg <;> rfl
  | finite neg m =>
    obtain ⟨j, hread⟩ := readDecimal_decimal l (m.shortest l.tie)
    have hnumeral := read?_of_readDecimal hread (splitSign_signText hread neg)
    show (Numeral.read? (signText neg ++ l.decimal (m.shortest l.tie))).map Numeral.toBinary64 =
      some (.finite neg m)
    rw [hnumeral, Option.map_some]
    show some (Binary64.ofDecimal neg ((m.shortest l.tie).padded j)) = some (.finite neg m)
    rw [Binary64.ofDecimal_padded,
      Binary64.ofDecimal_eq_finite neg (Magnitude.ofDecimal_shortest l.tie m)]

theorem exists_numeral (x : Binary64) :
    ∃ v, Numeral.read? (l.number x) = some v ∧ v.toBinary64 = x :=
  Option.map_eq_some_iff.1 (read?_number l x)

theorem number_ne_nil (x : Binary64) : l.number x ≠ [] := by
  obtain ⟨v, hv, -⟩ := exists_numeral l x
  exact ne_nil_of_read? hv

theorem not_colon_number (x : Binary64) : ':' ∉ l.number x := by
  obtain ⟨v, hv, -⟩ := exists_numeral l x
  exact not_colon_of_read? hv

theorem not_blank_of_mem_number {x : Binary64} {c : Char} (h : c ∈ l.number x) :
    Text.isBlank c = false := by
  obtain ⟨v, hv, -⟩ := exists_numeral l x
  exact not_blank_of_read? hv c h

end Ratchet.Layout

namespace Ratchet.Binary64

theorem toList_plain (x : Binary64) : x.plain.toList = Layout.plain.number x :=
  String.toList_ofList

theorem read?_plain (x : Binary64) : read? x.plain.toList = some x := by
  rw [toList_plain]
  exact Layout.read?_number Layout.plain x

end Ratchet.Binary64
