import Ratchet.Proofs.Decimal
import Ratchet.Number.Numeral
import Ratchet.Text.Blank

/-!
# What the number grammar reads

Digits, a point and more digits, with an exponent behind them or nothing, read as the decimal they
write (`readDecimal_point`, `readDecimal_whole`), and a sign goes in front of any of them
(`read?_of_readDecimal`). No text that reads as a number is empty or holds white space
(`not_blank_of_read?`), so none is trimmed, cut at a tab or broken at a line feed; and none holds
a colon (`not_colon_of_read?`).
-/

namespace Ratchet.Numeral

/-- A text of digits only. -/
def AllDigits (s : List Char) : Prop := ∀ c ∈ s, c.isDigit = true

/-- A text that no digit starts. -/
def DigitsEnd (s : List Char) : Prop := ∀ c ∈ s.head?, c.isDigit = false

theorem AllDigits.append {s t : List Char} (hs : AllDigits s) (ht : AllDigits t) :
    AllDigits (s ++ t) := by
  intro c hc
  rcases List.mem_append.1 hc with hc | hc
  · exact hs c hc
  · exact ht c hc

theorem AllDigits.take {s : List Char} (hs : AllDigits s) (n : Nat) : AllDigits (s.take n) :=
  fun c hc => hs c (List.mem_of_mem_take hc)

theorem AllDigits.drop {s : List Char} (hs : AllDigits s) (n : Nat) : AllDigits (s.drop n) :=
  fun c hc => hs c (List.mem_of_mem_drop hc)

theorem allDigits_zeros (n : Nat) : AllDigits (List.replicate n '0') := by
  intro c hc
  rw [List.eq_of_mem_replicate hc]
  rfl

theorem allDigits_digits (n : Nat) : AllDigits (digits n) := fun _ h => isDigit_of_mem_digits h

theorem digitsEnd_nil : DigitsEnd [] := fun _ h => by cases h

theorem digitsEnd_cons {c : Char} {s : List Char} (h : c.isDigit = false) : DigitsEnd (c :: s) := by
  intro d hd
  cases hd
  exact h

theorem DigitsEnd.takeWhile {s : List Char} (h : DigitsEnd s) : s.takeWhile Char.isDigit = [] := by
  cases s with
  | nil => rfl
  | cons c rest => rw [List.takeWhile_cons_of_neg (by simp [h c rfl])]

theorem DigitsEnd.dropWhile {s : List Char} (h : DigitsEnd s) : s.dropWhile Char.isDigit = s := by
  cases s with
  | nil => rfl
  | cons c rest => rw [List.dropWhile_cons_of_neg (by simp [h c rfl])]

variable {whole fraction rest : List Char}

theorem takeWhile_digits (hw : AllDigits whole) (hr : DigitsEnd rest) :
    (whole ++ rest).takeWhile Char.isDigit = whole := by
  rw [List.takeWhile_append_of_pos hw, hr.takeWhile, List.append_nil]

theorem dropWhile_digits (hw : AllDigits whole) (hr : DigitsEnd rest) :
    (whole ++ rest).dropWhile Char.isDigit = rest := by
  rw [List.dropWhile_append_of_pos hw, hr.dropWhile]

/-! ## Decimals -/

theorem readDecimal_point (hw : AllDigits whole) (hf : AllDigits fraction)
    (hne : whole ≠ [] ∨ fraction ≠ []) (hr : DigitsEnd rest) :
    readDecimal (whole ++ '.' :: (fraction ++ rest)) =
      (readExponent rest).map fun e => ⟨ofDigits (whole ++ fraction), e - fraction.length⟩ := by
  have hpoint : DigitsEnd ('.' :: (fraction ++ rest)) := digitsEnd_cons rfl
  have hsome : ¬(whole = [] ∧ fraction = []) := fun h => hne.elim (· h.1) (· h.2)
  unfold readDecimal
  rw [takeWhile_digits hw hpoint, dropWhile_digits hw hpoint]
  simp only [splitFraction, takeWhile_digits hf hr, dropWhile_digits hf hr, hsome, ↓reduceIte]

theorem readDecimal_whole (hw : AllDigits whole) (hne : whole ≠ []) (hr : DigitsEnd rest)
    (hpoint : rest.head? ≠ some '.') :
    readDecimal (whole ++ rest) = (readExponent rest).map fun e => ⟨ofDigits whole, e⟩ := by
  have hsplit : splitFraction rest = ([], rest) := by
    unfold splitFraction
    split
    · exact absurd rfl hpoint
    · rfl
  unfold readDecimal
  rw [takeWhile_digits hw hr, dropWhile_digits hw hr]
  simp [hsplit, hne]

theorem readExponent_nil : readExponent [] = some 0 := rfl

theorem splitSign_of_isDigit {c : Char} {s : List Char} (h : c.isDigit = true) :
    splitSign (c :: s) = (false, c :: s) := by
  unfold splitSign
  split
  · next heq => cases heq; cases h
  · next heq => cases heq; cases h
  · rfl

/-- A sign as it is written in front of an exponent, and in front of a number as well. -/
inductive ExponentSign : Bool → List Char → Prop where
  | minus : ExponentSign true ['-']
  | plus : ExponentSign false ['+']
  | none : ExponentSign false []

/-- A sign is taken off a text that does not go on with another. -/
theorem splitSign_append {neg : Bool} {sign s : List Char} (hs : ExponentSign neg sign)
    (h : ∀ c ∈ s.head?, c ≠ '-' ∧ c ≠ '+') : splitSign (sign ++ s) = (neg, s) := by
  cases hs with
  | minus => rfl
  | plus => rfl
  | none =>
    rw [List.nil_append]
    unfold splitSign
    split
    · exact absurd rfl (h '-' rfl).1
    · exact absurd rfl (h '+' rfl).2
    · rfl

theorem readExponent_marked {mark : Char} {neg : Bool} {sign ds : List Char}
    (hmark : mark = 'e' ∨ mark = 'E') (hs : ExponentSign neg sign) (hne : ds ≠ [])
    (hds : AllDigits ds) :
    readExponent (mark :: (sign ++ ds)) = some (Binary64.signed neg (ofDigits ds)) := by
  have hhead : ∀ c ∈ ds.head?, c ≠ '-' ∧ c ≠ '+' := fun c hc => by
    have hdigit := hds c (List.mem_of_mem_head? hc)
    constructor
    · rintro rfl
      cases hdigit
    · rintro rfl
      cases hdigit
  have hall : ds.all Char.isDigit = true := List.all_eq_true.2 hds
  unfold readExponent
  simp only [hmark, ↓reduceIte, splitSign_append hs hhead, hne, hall, ne_eq, not_false_eq_true,
    and_self]
  rfl

theorem readExponent_e {neg : Bool} {sign : List Char} (hs : ExponentSign neg sign) (n : Nat) :
    readExponent ('e' :: (sign ++ digits n)) = some (Binary64.signed neg n) := by
  rw [readExponent_marked (.inl rfl) hs (digits_ne_nil n) (allDigits_digits n), ofDigits_digits]

theorem head_of_readDecimal {s : List Char} {x : Decimal} (h : readDecimal s = some x) :
    ∃ c rest, s = c :: rest ∧ (c.isDigit = true ∨ c = '.') := by
  cases s with
  | nil => cases h
  | cons c rest =>
    refine ⟨c, rest, rfl, ?_⟩
    by_cases hdigit : c.isDigit = true
    · exact .inl hdigit
    · right
      refine Decidable.byContradiction fun hpoint => ?_
      have hend : DigitsEnd (c :: rest) := digitsEnd_cons (by simpa using hdigit)
      have hsplit : splitFraction (c :: rest) = ([], c :: rest) := by
        unfold splitFraction
        split
        · next heq => cases heq; exact absurd rfl hpoint
        · rfl
      unfold readDecimal at h
      simp [hend.takeWhile, hend.dropWhile, hsplit] at h

theorem toLower_of_isDigit {c : Char} (h : c.isDigit = true) : c.toLower = c := by
  refine dif_neg fun hupper => ?_
  have hlow : 'A'.toNat ≤ c.toNat := UInt32.le_iff_toNat_le.1 hupper.1
  have hhigh := (Char.isDigit_iff_toNat.1 h).2
  have hA : 'A'.toNat = 65 := rfl
  have hnine : '9'.toNat = 57 := rfl
  omega

theorem toLower_ne_of_head {c d : Char} (hc : c.isDigit = true ∨ c = '.')
    (hd : d.isDigit = false ∧ d ≠ '.') : c.toLower ≠ d := by
  rintro rfl
  rcases hc with hc | rfl
  · rw [toLower_of_isDigit hc, hc] at hd
    cases hd.1
  · exact hd.2 rfl

/-- A decimal reads under a sign, and is none of the words. -/
theorem read?_of_readDecimal {s : List Char} {x : Decimal} (h : readDecimal s = some x)
    {neg : Bool} {sign : List Char} (hsign : splitSign (sign ++ s) = (neg, s)) :
    read? (sign ++ s) = some (.decimal neg x) := by
  obtain ⟨c, rest, rfl, hc⟩ := head_of_readDecimal h
  have hnan : List.map Char.toLower (c :: rest) ≠ "nan".toList := fun heq =>
    toLower_ne_of_head hc (d := 'n') (by decide) (List.cons.inj heq).1
  have hinf : List.map Char.toLower (c :: rest) ≠ "inf".toList := fun heq =>
    toLower_ne_of_head hc (d := 'i') (by decide) (List.cons.inj heq).1
  have hinfinity : List.map Char.toLower (c :: rest) ≠ "infinity".toList := fun heq =>
    toLower_ne_of_head hc (d := 'i') (by decide) (List.cons.inj heq).1
  unfold read?
  simp only [hsign, if_neg hnan, hinf, hinfinity, or_self, ↓reduceIte, h, Option.map_some]

/-! ## No white space and no colon -/

/-- A character that leaves a mark of its own, in ASCII, and is not a colon. -/
def Visible (c : Char) : Prop := 33 ≤ c.toNat ∧ c.toNat ≤ 126 ∧ c.toNat ≠ 58

instance (c : Char) : Decidable (Visible c) := inferInstanceAs (Decidable (_ ∧ _))

theorem Visible.not_blank {c : Char} (h : Visible c) : Text.isBlank c = false := by
  unfold Visible at h
  simp [Text.isBlank, Text.inRanges, Text.blankRanges]
  omega

theorem visible_of_isDigit {c : Char} (h : c.isDigit = true) : Visible c := by
  have hrange := Char.isDigit_iff_toNat.1 h
  have hzero : '0'.toNat = 48 := rfl
  have hnine : '9'.toNat = 57 := rfl
  unfold Visible
  omega

theorem visible_of_toLower {c : Char} (h : Visible c.toLower) : Visible c := by
  unfold Char.toLower at h
  split at h
  · next hupper =>
    have hlow : 'A'.toNat ≤ c.toNat := UInt32.le_iff_toNat_le.1 hupper.1
    have hhigh : c.toNat ≤ 'Z'.toNat := UInt32.le_iff_toNat_le.1 hupper.2
    have hA : 'A'.toNat = 65 := rfl
    have hZ : 'Z'.toNat = 90 := rfl
    unfold Visible
    omega
  · exact h

theorem visible_or_mem_of_mem_cons {c d : Char} {s : List Char} (hd : Visible d) (h : c ∈ d :: s) :
    Visible c ∨ c ∈ s := by
  rcases List.mem_cons.1 h with rfl | h
  · exact .inl hd
  · exact .inr h

theorem visible_or_mem_splitSign {s : List Char} {c : Char} (h : c ∈ s) :
    Visible c ∨ c ∈ (splitSign s).2 := by
  unfold splitSign
  split
  · exact visible_or_mem_of_mem_cons (by decide) h
  · exact visible_or_mem_of_mem_cons (by decide) h
  · exact .inr h

theorem visible_of_readExponent {s : List Char} {e : Int} (h : readExponent s = some e) {c : Char}
    (hc : c ∈ s) : Visible c := by
  cases s with
  | nil => cases hc
  | cons d rest =>
    unfold readExponent at h
    rcases hsplit : splitSign rest with ⟨neg, ds⟩
    simp only [hsplit] at h
    split at h
    · next hd =>
      split at h
      · next hdigits =>
        have hmark : Visible d := by rcases hd with rfl | rfl <;> decide
        rcases visible_or_mem_of_mem_cons hmark hc with hc | hc
        · exact hc
        · rcases visible_or_mem_splitSign hc with hc | hc
          · exact hc
          · rw [hsplit] at hc
            exact visible_of_isDigit (List.all_eq_true.1 hdigits.2 c hc)
      · cases h
    · cases h

theorem visible_or_mem_dropWhile {s : List Char} {c : Char} (h : c ∈ s) :
    Visible c ∨ c ∈ s.dropWhile Char.isDigit := by
  rw [← List.takeWhile_append_dropWhile (p := Char.isDigit) (l := s)] at h
  rcases List.mem_append.1 h with h | h
  · exact .inl (visible_of_isDigit (List.all_eq_true.1 List.all_takeWhile c h))
  · exact .inr h

theorem visible_or_mem_splitFraction {s : List Char} {c : Char} (h : c ∈ s) :
    Visible c ∨ c ∈ (splitFraction s).2 := by
  unfold splitFraction
  split
  · rcases visible_or_mem_of_mem_cons (by decide) h with h | h
    · exact .inl h
    · exact visible_or_mem_dropWhile h
  · exact .inr h

theorem visible_of_readDecimal {s : List Char} {x : Decimal} (h : readDecimal s = some x) {c : Char}
    (hc : c ∈ s) : Visible c := by
  rcases visible_or_mem_dropWhile hc with hc | hc
  · exact hc
  · rcases visible_or_mem_splitFraction hc with hc | hc
    · exact hc
    · unfold readDecimal at h
      split at h
      next fraction rest hsplit =>
      dsimp only at h
      split at h
      · cases h
      · obtain ⟨e, he, -⟩ := Option.map_eq_some_iff.1 h
        rw [hsplit] at hc
        exact visible_of_readExponent he hc

theorem visible_of_word {body word : List Char} (hw : (word.all fun d => decide (Visible d)) = true)
    (h : body.map Char.toLower = word) {c : Char} (hc : c ∈ body) : Visible c := by
  have hmem : c.toLower ∈ word := h ▸ List.mem_map_of_mem hc
  exact visible_of_toLower (of_decide_eq_true (List.all_eq_true.1 hw _ hmem))

theorem visible_of_read? {s : List Char} {v : Numeral} (h : read? s = some v) {c : Char}
    (hc : c ∈ s) : Visible c := by
  rcases visible_or_mem_splitSign hc with hc | hc
  · exact hc
  · unfold read? at h
    rcases hsplit : splitSign s with ⟨neg, body⟩
    rw [hsplit] at hc
    simp only [hsplit] at h
    split at h
    · next hnan => exact visible_of_word (by decide) hnan hc
    · split at h
      · next hinf =>
        rcases hinf with hinf | hinf
        · exact visible_of_word (by decide) hinf hc
        · exact visible_of_word (by decide) hinf hc
      · obtain ⟨x, hx, -⟩ := Option.map_eq_some_iff.1 h
        exact visible_of_readDecimal hx hc

theorem not_blank_of_read? {s : List Char} {v : Numeral} (h : read? s = some v) :
    ∀ c ∈ s, Text.isBlank c = false := fun _ hc => (visible_of_read? h hc).not_blank

theorem not_colon_of_read? {s : List Char} {v : Numeral} (h : read? s = some v) : ':' ∉ s :=
  fun hc => (visible_of_read? h hc).2.2 rfl

theorem ne_nil_of_read? {s : List Char} {v : Numeral} (h : read? s = some v) : s ≠ [] := by
  rintro rfl
  cases h

end Ratchet.Numeral
