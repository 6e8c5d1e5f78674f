import Ratchet.Json.Reader
import Ratchet.Json.Writer

/-!
# Escaped texts read back

Every character of a text is written as itself, as a backslash and a letter, or by number, and what
is written takes one place when it is read (`readPlaces_escaped`). Only controls are written by
number, and no control is half of a surrogate pair, so places that stand next to each other never
become one character (`joinPlaces_cons`). So any text comes back from its quotes, up to and without
the closing one (`readText_escaped`).
-/

namespace Ratchet.Json

/-- A place stands for a character: it holds it, or gives its number below the surrogates. -/
inductive Place.StandsFor : Place → Char → Prop where
  | char (c : Char) : StandsFor (.char c) c
  | unit (c : Char) (below : c.toNat < 0xD800) : StandsFor (.unit c.toNat) c

theorem joinPlaces_cons {p : Place} {c : Char} (h : p.StandsFor c) (places : List Place) :
    joinPlaces (p :: places) = (joinPlaces places).map (c :: ·) := by
  cases h with
  | char => rfl
  | unit _ below =>
    have hleading : isLeading c.toNat = false := by simp [isLeading]; omega
    have htrailing : isTrailing c.toNat = false := by simp [isTrailing]; omega
    cases places with
    | nil => simp [joinPlaces, hleading, htrailing]
    | cons q rest => cases q <;> simp [joinPlaces, hleading, htrailing]

def hexNumber? : List Char → Option Nat
  | [a, b, c, d] => fourHexValue a b c d
  | _ => none

theorem fourHexValue_fourHex {n : Nat} (h : n < 0x20) :
    ∃ a b c d, fourHex n = [a, b, c, d] ∧ fourHexValue a b c d = some n := by
  have hall : ∀ n < 0x20, hexNumber? (fourHex n) = some n := by decide +kernel
  have hn := hall n h
  unfold hexNumber? at hn
  split at hn
  · next a b c d hdigits => exact ⟨a, b, c, d, hdigits, hn⟩
  · cases hn

/-- What is written for a character. -/
inductive Escape (c : Char) : List Char → Prop where
  | letter (e : Char) (stands : unescaped e = some c) : Escape c ['\\', e]
  | number (control : c.toNat < 0x20) : Escape c ('\\' :: 'u' :: fourHex c.toNat)
  | plain (visible : ¬ c.toNat < 0x20) (noQuote : c ≠ '"') (noBackslash : c ≠ '\\') : Escape c [c]

theorem escape_escaped (c : Char) : Escape c (escaped c) := by
  unfold escaped
  repeat' split
  · next h => exact h ▸ .letter '"' rfl
  · next h => exact h ▸ .letter '\\' rfl
  · next h => exact h ▸ .letter 'b' rfl
  · next h => exact h ▸ .letter 't' rfl
  · next h => exact h ▸ .letter 'n' rfl
  · next h => exact h ▸ .letter 'f' rfl
  · next h => exact h ▸ .letter 'r' rfl
  · next h => exact .number h
  · next hquote hbackslash _ _ _ _ _ h => exact .plain h hquote hbackslash

/-- What is written for a character takes one place. -/
theorem readPlaces_escaped (c : Char) (s : List Char) :
    ∃ p : Place, p.StandsFor c ∧
      readPlaces (escaped c ++ s) = (readPlaces s).map fun (places, rest) => (p :: places, rest) := by
  have hescape := escape_escaped c
  generalize escaped c = written at hescape
  cases hescape with
  | letter e stands =>
    have hne : e ≠ 'u' := by
      rintro rfl
      cases stands
    refine ⟨.char c, .char c, ?_⟩
    rw [List.cons_append, List.cons_append, List.nil_append, readPlaces]
    · rw [stands]
      cases readPlaces s <;> rfl
    · rintro _ _ _ _ _ heq -
      exact hne heq
  | number control =>
    obtain ⟨a, b, d, e, hdigits, hvalue⟩ := fourHexValue_fourHex control
    refine ⟨.unit c.toNat, .unit c (by omega), ?_⟩
    rw [hdigits]
    simp only [List.cons_append, List.nil_append, readPlaces, hvalue]
    cases readPlaces s <;> rfl
  | plain visible noQuote noBackslash =>
    refine ⟨.char c, .char c, ?_⟩
    rw [List.cons_append, List.nil_append, readPlaces]
    · rw [if_neg (not_or.2 ⟨visible, noBackslash⟩)]
      cases readPlaces s <;> rfl
    all_goals simp_all

theorem readPlaces_flatMap_escaped (cs rest : List Char) :
    ∃ places, readPlaces (cs.flatMap escaped ++ '"' :: rest) = some (places, rest) ∧
      joinPlaces places = some cs := by
  induction cs with
  | nil => exact ⟨[], rfl, rfl⟩
  | cons c cs ih =>
    obtain ⟨places, hplaces, hjoin⟩ := ih
    obtain ⟨p, hstands, hread⟩ := readPlaces_escaped c (cs.flatMap escaped ++ '"' :: rest)
    refine ⟨p :: places, ?_, ?_⟩
    · rw [List.flatMap_cons, List.append_assoc, hread, hplaces, Option.map_some]
    · rw [joinPlaces_cons hstands, hjoin, Option.map_some]

/-- A text in quotes reads back, whatever its characters are. -/
theorem readText_escaped (s : String) (rest : List Char) :
    readText (s.toList.flatMap escaped ++ '"' :: rest) = some (some s, rest) := by
  obtain ⟨places, hplaces, hjoin⟩ := readPlaces_flatMap_escaped s.toList rest
  unfold readText
  rw [hplaces]
  show some ((joinPlaces places).map String.ofList, rest) = some (some s, rest)
  rw [hjoin, Option.map_some, String.ofList_toList]

end Ratchet.Json
