import Ratchet.Proofs.Numeral

/-!
# The grammar of written numbers

`Spells` says which texts write which number, without saying how a text is read: a word in any case,
or digits with a point among them or none and an exponent behind them or none, under a sign or none.
Reading accepts just these texts, and gives the number that is written (`read?_eq_some_iff`). The
exponent, the decimal and the signed whole are a relation and an equivalence each.
-/

namespace Ratchet.Numeral

variable {s : List Char}

/-- An exponent behind its mark, or nothing, which stands for the exponent zero. -/
inductive SpellsExponent : List Char → Int → Prop where
  | absent : SpellsExponent [] 0
  | marked {mark : Char} {neg : Bool} {sign ds : List Char} : mark = 'e' ∨ mark = 'E' →
      ExponentSign neg sign → ds ≠ [] → AllDigits ds →
      SpellsExponent (mark :: (sign ++ ds)) (Binary64.signed neg (ofDigits ds))

theorem exponentSign_splitSign (s : List Char) :
    ∃ sign, ExponentSign (splitSign s).1 sign ∧ s = sign ++ (splitSign s).2 := by
  unfold splitSign
  split
  · exact ⟨_, .minus, rfl⟩
  · exact ⟨_, .plus, rfl⟩
  · exact ⟨_, .none, rfl⟩

theorem readExponent_eq_some_iff {e : Int} : readExponent s = some e ↔ SpellsExponent s e := by
  constructor
  · intro h
    cases s with
    | nil =>
      cases h
      exact .absent
    | cons mark rest =>
      obtain ⟨sign, hsign, hrest⟩ := exponentSign_splitSign rest
      unfold readExponent at h
      rcases hsplit : splitSign rest with ⟨neg, ds⟩
      simp only [hsplit] at h hsign hrest
      subst hrest
      split at h
      · next hmark =>
        split at h
        · next hds =>
          cases h
          exact .marked hmark hsign hds.1 (List.all_eq_true.1 hds.2)
        · cases h
      · cases h
  · rintro (_ | ⟨hmark, hsign, hne, hds⟩)
    · rfl
    · exact readExponent_marked hmark hsign hne hds

theorem SpellsExponent.head? {e : Int} (h : SpellsExponent s e) :
    ∀ c ∈ s.head?, c = 'e' ∨ c = 'E' := by
  rintro c hc
  cases h with
  | absent => cases hc
  | marked hmark =>
    cases hc
    exact hmark

theorem SpellsExponent.digitsEnd {e : Int} (h : SpellsExponent s e) : DigitsEnd s := fun c hc => by
  rcases h.head? c hc with rfl | rfl <;> rfl

/-- Digits and an exponent, or a point with digits on at least one side of it and an exponent. Every
digit behind the point counts for a tenth of the one before. -/
inductive SpellsDecimal : List Char → Decimal → Prop where
  | whole {ds exponent : List Char} {e : Int} : ds ≠ [] → AllDigits ds →
      SpellsExponent exponent e → SpellsDecimal (ds ++ exponent) ⟨ofDigits ds, e⟩
  | point {ds fraction exponent : List Char} {e : Int} : ds ≠ [] ∨ fraction ≠ [] →
      AllDigits ds → AllDigits fraction → SpellsExponent exponent e →
      SpellsDecimal (ds ++ '.' :: (fraction ++ exponent))
        ⟨ofDigits (ds ++ fraction), e - fraction.length⟩

theorem allDigits_takeWhile (s : List Char) : AllDigits (s.takeWhile Char.isDigit) :=
  List.all_eq_true.1 List.all_takeWhile

theorem spellsDecimal_of_readDecimal {x : Decimal} (h : readDecimal s = some x) :
    SpellsDecimal s x := by
  have hds := allDigits_takeWhile s
  have hs : s = s.takeWhile Char.isDigit ++ s.dropWhile Char.isDigit :=
    List.takeWhile_append_dropWhile.symm
  unfold readDecimal at h
  generalize s.takeWhile Char.isDigit = ds at h hds hs
  generalize s.dropWhile Char.isDigit = tail at h hs
  unfold splitFraction at h
  split at h
  next fraction exponent hsplit =>
  dsimp only at h
  split at h
  · cases h
  · next hdigits =>
    obtain ⟨e, he, rfl⟩ := Option.map_eq_some_iff.1 h
    have hexponent := readExponent_eq_some_iff.1 he
    split at hsplit
    · next rest =>
      cases hsplit
      have hrest : rest = rest.takeWhile Char.isDigit ++ rest.dropWhile Char.isDigit :=
        List.takeWhile_append_dropWhile.symm
      have hpoint := SpellsDecimal.point (Decidable.not_and_iff_not_or_not.1 hdigits) hds
        (allDigits_takeWhile rest) hexponent
      rwa [← hrest, ← hs] at hpoint
    · cases hsplit
      have hwhole := SpellsDecimal.whole (fun hnil => hdigits ⟨hnil, rfl⟩) hds hexponent
      rw [← hs] at hwhole
      simpa using hwhole

theorem readDecimal_eq_some_iff {x : Decimal} : readDecimal s = some x ↔ SpellsDecimal s x := by
  refine ⟨spellsDecimal_of_readDecimal, ?_⟩
  rintro (⟨hne, hds, hexponent⟩ | ⟨hne, hds, hfraction, hexponent⟩)
  · have hpoint : ∀ {s : List Char} {e : Int}, SpellsExponent s e → s.head? ≠ some '.' :=
      fun h hhead => by rcases h.head? '.' hhead with h | h <;> cases h
    rw [readDecimal_whole hds hne hexponent.digitsEnd (hpoint hexponent),
      readExponent_eq_some_iff.2 hexponent]
    rfl
  · rw [readDecimal_point hds hfraction hne hexponent.digitsEnd,
      readExponent_eq_some_iff.2 hexponent]
    rfl

/-- A text writes a number: one of the words in any case, or a decimal, under a sign or none. -/
inductive Spells : List Char → Numeral → Prop where
  | nan {neg : Bool} {sign word : List Char} : ExponentSign neg sign →
      word.map Char.toLower = "nan".toList → Spells (sign ++ word) .nan
  | infinite {neg : Bool} {sign word : List Char} : ExponentSign neg sign →
      word.map Char.toLower = "inf".toList ∨ word.map Char.toLower = "infinity".toList →
      Spells (sign ++ word) (.infinite neg)
  | decimal {neg : Bool} {sign s : List Char} {x : Decimal} : ExponentSign neg sign →
      SpellsDecimal s x → Spells (sign ++ s) (.decimal neg x)

theorem splitSign_word {neg : Bool} {sign word rest : List Char} {d : Char}
    (hs : ExponentSign neg sign) (h : word.map Char.toLower = d :: rest)
    (hd : d ≠ '-' ∧ d ≠ '+') : splitSign (sign ++ word) = (neg, word) := by
  refine splitSign_append hs fun c hc => ?_
  cases word with
  | nil => cases hc
  | cons c' tail =>
    cases hc
    have hlower : c.toLower = d := (List.cons.inj h).1
    constructor
    · rintro rfl
      exact hd.1 hlower.symm
    · rintro rfl
      exact hd.2 hlower.symm

theorem spells_of_read? {n : Numeral} (h : read? s = some n) : Spells s n := by
  obtain ⟨sign, hsign, hs⟩ := exponentSign_splitSign s
  unfold read? at h
  generalize splitSign s = split at h hsign hs
  obtain ⟨neg, body⟩ := split
  subst hs
  dsimp only at h
  split at h
  · next hnan =>
    cases h
    exact .nan hsign hnan
  · split at h
    · next hinf =>
      cases h
      exact .infinite hsign hinf
    · obtain ⟨x, hx, rfl⟩ := Option.map_eq_some_iff.1 h
      exact .decimal hsign (readDecimal_eq_some_iff.1 hx)

theorem Spells.read?_eq {n : Numeral} (h : Spells s n) : read? s = some n := by
  cases h with
  | nan hsign hnan =>
    unfold read?
    simp only [splitSign_word hsign hnan (by decide), hnan, ↓reduceIte]
  | infinite hsign hinf =>
    have hsplit := hinf.elim (fun h => splitSign_word hsign h (by decide))
      fun h => splitSign_word hsign h (by decide)
    unfold read?
    rcases hinf with hinf | hinf
    · simp [hsplit, hinf]
    · simp [hsplit, hinf]
  | decimal hsign hdecimal =>
    have hread := readDecimal_eq_some_iff.2 hdecimal
    refine read?_of_readDecimal hread (splitSign_append hsign fun c hc => ?_)
    obtain ⟨c', rest, rfl, hstart⟩ := head_of_readDecimal hread
    cases hc
    constructor
    · rintro rfl
      rcases hstart with h | h <;> cases h
    · rintro rfl
      rcases hstart with h | h <;> cases h

/-- Reading accepts the texts of the grammar and no others, each as the number that it writes. -/
theorem read?_eq_some_iff {n : Numeral} : read? s = some n ↔ Spells s n :=
  ⟨spells_of_read?, Spells.read?_eq⟩

end Ratchet.Numeral
