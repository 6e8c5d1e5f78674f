import Ratchet.Json.Writer
import Ratchet.Json.Number
import Ratchet.Proofs.NumberText

/-!
# Numbers of a document read back digit by digit

`NumberText.chars` writes a number as a document has it, and `NumberText.read_chars` reads it off
the front of whatever follows, as long as that does not go on with the number. Both kinds of numbers
that documents hold are written so: a count is its digits (`NumberText.ofCount`), and a double
precision number is the shortest decimal of its magnitude under its sign (`NumberText.ofMagnitude`),
with a point or an exponent in it. So neither is mistaken for the other
(`NumberText.ofDecimal_ne_ofCount`), and what was read tells either from all others of its kind
(`NumberText.ofCount_injective`, `NumberText.ofMagnitude_injective`).
-/

namespace Ratchet.Json.NumberText

open Numeral (AllDigits DigitsEnd)

/-- The digits of a whole part: no zero stands in front of others. -/
structure Whole (ds : List Char) : Prop where
  digits : AllDigits ds
  nonempty : ds ≠ []
  noZeros : ds.head? = some '0' → ds = ['0']

/-- A number that the grammar of documents has. -/
structure WellFormed (t : NumberText) : Prop where
  whole : Whole t.whole
  fraction : AllDigits t.fraction
  exponent : ∀ e ∈ t.exponent, AllDigits e.2 ∧ e.2 ≠ []

/-- Digits after a point, or nothing. -/
def fractionChars (ds : List Char) : List Char := if ds = [] then [] else '.' :: ds

theorem fractionChars_of_ne_nil {ds : List Char} (h : ds ≠ []) : fractionChars ds = '.' :: ds :=
  if_neg h

/-- An exponent, with a plus sign unless it is negative, or nothing. -/
def exponentChars : Option (Bool × List Char) → List Char
  | none => []
  | some (neg, ds) => 'e' :: (if neg then '-' else '+') :: ds

def chars (t : NumberText) : List Char :=
  Layout.signText t.neg ++ (t.whole ++ (fractionChars t.fraction ++ exponentChars t.exponent))

/-- What may follow a number: nothing that could be a part of it. -/
def NumberEnd (s : List Char) : Prop :=
  ∀ c ∈ s.head?, c.isDigit = false ∧ c ≠ '.' ∧ c ≠ 'e' ∧ c ≠ 'E'

variable {ds s rest : List Char}

theorem NumberEnd.digitsEnd (h : NumberEnd s) : DigitsEnd s := fun c hc => (h c hc).1

theorem readWhole_append (h : Whole ds) (hs : DigitsEnd s) : readWhole (ds ++ s) = some (ds, s) := by
  unfold readWhole
  rw [Numeral.takeWhile_digits h.digits hs, Numeral.dropWhile_digits h.digits hs]
  split
  · next heq => exact absurd rfl h.nonempty
  · rfl
  · next heq =>
    have := h.noZeros rfl
    simp at this
  · rfl

theorem readFraction_append (h : AllDigits ds) (hs : DigitsEnd s) (hpoint : s.head? ≠ some '.') :
    readFraction (fractionChars ds ++ s) = some (ds, s) := by
  unfold fractionChars
  by_cases hds : ds = []
  · subst hds
    rw [if_pos rfl, List.nil_append]
    unfold readFraction
    split
    · exact absurd rfl hpoint
    · rfl
  · rw [if_neg hds, List.cons_append, readFraction, Numeral.takeWhile_digits h hs,
      Numeral.dropWhile_digits h hs]
    split
    · exact absurd rfl hds
    · rfl

theorem readExponent_append {e : Option (Bool × List Char)}
    (h : ∀ x ∈ e, AllDigits x.2 ∧ x.2 ≠ []) (hs : NumberEnd s) :
    readExponent (exponentChars e ++ s) = some (e, s) := by
  cases e with
  | none =>
    show readExponent s = some (none, s)
    unfold readExponent
    split
    · next c rest =>
      obtain ⟨-, -, he, hE⟩ := hs c rfl
      rw [if_neg (not_or.2 ⟨he, hE⟩)]
    · rfl
  | some e =>
    obtain ⟨neg, ds⟩ := e
    obtain ⟨hdigits, hne⟩ := h _ rfl
    have hsplit : splitSign ((if neg then '-' else '+') :: (ds ++ s)) = (neg, ds ++ s) := by
      cases neg <;> rfl
    simp only [exponentChars, List.cons_append, readExponent, true_or, ↓reduceIte, hsplit,
      Numeral.takeWhile_digits hdigits hs.digitsEnd, Numeral.dropWhile_digits hdigits hs.digitsEnd]

/-- Neither an exponent nor what may follow a number goes on with digits. -/
theorem head_exponentChars (e : Option (Bool × List Char)) (hs : NumberEnd s) :
    DigitsEnd (exponentChars e ++ s) ∧ (exponentChars e ++ s).head? ≠ some '.' := by
  cases e with
  | none => exact ⟨hs.digitsEnd, fun h => (hs '.' h).2.1 rfl⟩
  | some e => exact ⟨Numeral.digitsEnd_cons rfl, by simp [exponentChars]⟩

theorem digitsEnd_fractionChars (ds : List Char) (hs : DigitsEnd s) : DigitsEnd (fractionChars ds ++ s) := by
  unfold fractionChars
  split
  · exact hs
  · exact Numeral.digitsEnd_cons rfl

theorem Whole.head (h : Whole ds) : ∃ c rest, ds = c :: rest ∧ c.isDigit = true := by
  cases ds with
  | nil => exact absurd rfl h.nonempty
  | cons c rest => exact ⟨c, rest, rfl, h.digits c List.mem_cons_self⟩

/-- A number reads back, whatever follows it that is no part of it. -/
theorem read_chars {t : NumberText} (h : t.WellFormed) (hs : NumberEnd s) :
    read (t.chars ++ s) = some (t, s) := by
  obtain ⟨neg, whole, fraction, exponent⟩ := t
  obtain ⟨hexponent, hpoint⟩ := head_exponentChars exponent hs
  have hwhole := readWhole_append h.whole (digitsEnd_fractionChars fraction hexponent)
  have hfraction := readFraction_append h.fraction hexponent hpoint
  have hend := readExponent_append h.exponent hs
  unfold read
  cases neg with
  | true =>
    simp only [chars, Layout.signText, ↓reduceIte, List.cons_append, List.nil_append,
      List.append_assoc, bind, hwhole, hfraction, hend, Option.bind_some]
    rfl
  | false =>
    obtain ⟨c, rest, rfl, hdigit⟩ := h.whole.head
    simp only [chars, Layout.signText, Bool.false_eq_true, ↓reduceIte, List.nil_append,
      List.append_assoc]
    split
    · next heq =>
      cases heq
      cases hdigit
    · simp only [bind, hwhole, hfraction, hend, Option.bind_some]
      rfl

/-- A count as a document writes it. -/
def ofCount (n : Nat) : NumberText := ⟨false, digits n, [], none⟩

theorem whole_digits (n : Nat) : Whole (digits n) where
  digits := Numeral.allDigits_digits n
  nonempty := digits_ne_nil n
  noZeros h := by
    by_cases hn : n = 0
    · rw [hn]
      rfl
    · exact absurd h (head?_digits_ne hn)

theorem wellFormed_ofCount (n : Nat) : (ofCount n).WellFormed where
  whole := whole_digits n
  fraction _ h := by cases h
  exponent _ h := by cases h

theorem chars_ofCount (n : Nat) : (ofCount n).chars = digits n := by
  simp [chars, ofCount, Layout.signText, fractionChars, exponentChars]

theorem ofCount_injective {n n' : Nat} (h : ofCount n = ofCount n') : n = n' := by
  have hdigits : digits n = digits n' := congrArg NumberText.whole h
  rw [← ofDigits_digits n, hdigits, ofDigits_digits]

/-! ## Double precision numbers -/

/-- A decimal under a sign as a document writes it. -/
def ofDecimal (neg : Bool) (x : Decimal) : NumberText :=
  let ds := Ratchet.digits x.coeff
  let lead := x.exponent + ds.length - 1
  let places := (-x.exponent).toNat
  if Layout.json.isPositional lead then
    if 0 ≤ x.exponent then ⟨neg, ds ++ List.replicate x.exponent.toNat '0', ['0'], none⟩
    else if places < ds.length then
      ⟨neg, ds.take (ds.length - places), ds.drop (ds.length - places), none⟩
    else ⟨neg, ['0'], List.replicate (places - ds.length) '0' ++ ds, none⟩
  else ⟨neg, ds.take 1, ds.drop 1, some (decide (lead < 0), Ratchet.digits lead.natAbs)⟩

theorem exponentText_eq (ds : List Char) (lead : Int) :
    Layout.json.exponentText ds lead =
      ds.take 1 ++ (fractionChars (ds.drop 1) ++
        exponentChars (some (decide (lead < 0), Ratchet.digits lead.natAbs))) := by
  have hfraction : (if ds.length ≤ 1 then [] else '.' :: ds.drop 1) = fractionChars (ds.drop 1) := by
    simp only [fractionChars, List.drop_eq_nil_iff]
  unfold Layout.exponentText
  dsimp only
  rw [hfraction]
  by_cases hlead : lead < 0
  · simp [exponentChars, hlead]
  · simp [exponentChars, hlead, Layout.json]

theorem chars_ofDecimal (neg : Bool) (x : Decimal) :
    (ofDecimal neg x).chars = Layout.signText neg ++ Layout.json.decimal x := by
  unfold ofDecimal Layout.decimal
  dsimp only
  split
  · unfold Layout.positionalText
    split
    · simp [chars, fractionChars, exponentChars, Layout.json]
    · split
      · have hdrop : (digits x.coeff).drop ((digits x.coeff).length - (-x.exponent).toNat) ≠ [] := by
          simp only [ne_eq, List.drop_eq_nil_iff]
          omega
        simp [chars, fractionChars_of_ne_nil hdrop, exponentChars]
      · have hfraction : List.replicate ((-x.exponent).toNat - (digits x.coeff).length) '0' ++
            digits x.coeff ≠ [] := by simp [digits_ne_nil]
        simp [chars, fractionChars_of_ne_nil hfraction, exponentChars]
  · rw [exponentText_eq]
    rfl

theorem Whole.append (h : Whole ds) (hne : ds.head? ≠ some '0') (hs : AllDigits s) :
    Whole (ds ++ s) where
  digits := h.digits.append hs
  nonempty := List.append_ne_nil_of_left_ne_nil h.nonempty s
  noZeros hzero := by
    rw [List.head?_append, Option.or_of_isSome (List.isSome_head?.2 h.nonempty)] at hzero
    exact absurd hzero hne

theorem Whole.take (h : Whole ds) {n : Nat} (hn : 0 < n) : Whole (ds.take n) where
  digits := h.digits.take n
  nonempty := by simp [h.nonempty]; omega
  noZeros hzero := by
    rw [List.head?_take, if_neg (by omega)] at hzero
    rw [h.noZeros hzero, List.take_of_length_le (Nat.succ_le_of_lt hn)]

/-- What a document writes for a double precision number is a number of the grammar. -/
theorem wellFormed_ofDecimal (neg : Bool) {x : Decimal} (hx : x.coeff = 0 → x.exponent ≤ 0) :
    (ofDecimal neg x).WellFormed := by
  have hdigits := whole_digits x.coeff
  unfold ofDecimal
  dsimp only
  split
  · split
    · refine ⟨?_, Numeral.allDigits_zeros 1, fun _ h => by cases h⟩
      by_cases hzero : x.coeff = 0
      · have hexp : x.exponent.toNat = 0 := by
          have := hx hzero
          omega
        rw [hexp, List.replicate_zero, List.append_nil]
        exact hdigits
      · exact hdigits.append (head?_digits_ne hzero) (Numeral.allDigits_zeros _)
    · split
      · exact ⟨hdigits.take (by omega), hdigits.digits.drop _, fun _ h => by cases h⟩
      · exact ⟨whole_digits 0, (Numeral.allDigits_zeros _).append hdigits.digits,
          fun _ h => by cases h⟩
  · refine ⟨hdigits.take (by decide), hdigits.digits.drop 1, fun e he => ?_⟩
    cases he
    exact ⟨Numeral.allDigits_digits _, digits_ne_nil _⟩

/-- There is a point or an exponent in the text of a number that is not a count. -/
theorem ofDecimal_ne_ofCount (neg : Bool) (x : Decimal) (n : Nat) : ofDecimal neg x ≠ ofCount n := by
  have hpoint : (ofDecimal neg x).fraction ≠ [] ∨ (ofDecimal neg x).exponent ≠ none := by
    unfold ofDecimal
    dsimp only
    split
    · left
      split
      · simp
      · split
        · simp only [ne_eq, List.drop_eq_nil_iff]
          omega
        · simp [digits_ne_nil]
    · exact .inr (by simp)
  intro h
  rw [h] at hpoint
  exact hpoint.elim (· rfl) (· rfl)

/-! ## Magnitudes -/

/-- A magnitude under a sign as a document writes it. -/
def ofMagnitude (neg : Bool) (m : Magnitude) : NumberText := ofDecimal neg (m.shortest .even)

theorem shortest_zero : Magnitude.zero.shortest .even = ⟨0, 0⟩ := by decide +kernel

theorem wellFormed_ofMagnitude (neg : Bool) (m : Magnitude) : (ofMagnitude neg m).WellFormed := by
  refine wellFormed_ofDecimal neg fun hcoeff => ?_
  have hread := m.ofDecimal_shortest .even
  rw [Binary64.ofDecimal_of_tiny false (.inl hcoeff)] at hread
  cases hread
  exact Int.le_of_eq (congrArg Decimal.exponent shortest_zero)

theorem chars_ofMagnitude (neg : Bool) (m : Magnitude) :
    (ofMagnitude neg m).chars = Layout.json.number (.finite neg m) := chars_ofDecimal neg _

theorem ofMagnitude_injective {neg neg' : Bool} {m m' : Magnitude}
    (h : ofMagnitude neg m = ofMagnitude neg' m') :
    Binary64.finite neg m = Binary64.finite neg' m' := by
  have hchars := congrArg chars h
  rw [chars_ofMagnitude, chars_ofMagnitude] at hchars
  have hread := congrArg Binary64.read? hchars
  rw [Layout.read?_number, Layout.read?_number] at hread
  exact Option.some.inj hread

end Ratchet.Json.NumberText
