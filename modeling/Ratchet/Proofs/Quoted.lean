import Ratchet.Text.Lines
import Ratchet.Text.Quoted

/-!
# Quoted texts can be told apart

A quoted text shows each character by itself, by a backslash and a letter, or by a backslash and its
code point in brackets. None of these forms is the front of another, and none starts like the quote
that ends the text. So the characters can be read off the front one after the other, which
`quoted_injective` does for two texts at once.
-/

namespace Ratchet.Text

theorem hexDigits_eq (n : Nat) :
    Nat.toDigits 16 n =
      (if n < 16 then [] else Nat.toDigits 16 (n / 16)) ++ [Nat.digitChar (n % 16)] := by
  rw [Nat.toDigits_eq_if (by decide)]
  split
  · next h => rw [Nat.mod_eq_of_lt h, List.nil_append]
  · rfl

theorem hexDigits_injective {m n : Nat} (h : Nat.toDigits 16 m = Nat.toDigits 16 n) : m = n := by
  have hdigit : ∀ i < 16, ∀ j < 16, Nat.digitChar i = Nat.digitChar j → i = j := by decide
  induction m using Nat.strongRecOn generalizing n with
  | ind m ih =>
    rw [hexDigits_eq m, hexDigits_eq n] at h
    obtain ⟨hfront, hlast⟩ := List.append_inj' h rfl
    have hmod := hdigit (m % 16) (Nat.mod_lt _ (by decide)) (n % 16) (Nat.mod_lt _ (by decide))
      (List.cons.inj hlast).1
    split at hfront <;> split at hfront
    · omega
    · exact absurd hfront.symm Nat.toDigits_ne_nil
    · exact absurd hfront Nat.toDigits_ne_nil
    · have hdiv := ih (m / 16) (by omega) hfront
      omega

theorem not_bracket_mem_hexDigits (n : Nat) : '\x7d' ∉ Nat.toDigits 16 n := by
  have hdigit : ∀ i < 16, '\x7d' ≠ Nat.digitChar i := by decide
  induction n using Nat.strongRecOn with
  | ind n ih =>
    rw [hexDigits_eq, List.mem_append, List.mem_singleton, not_or]
    refine ⟨?_, hdigit (n % 16) (Nat.mod_lt _ (by decide))⟩
    split
    · exact List.not_mem_nil
    · exact ih (n / 16) (by omega)

/-- The character that a letter behind a backslash shows. -/
def ofLetter? : Char → Option Char
  | '"' => some '"'
  | '\\' => some '\\'
  | 't' => some '\t'
  | 'n' => some '\n'
  | 'r' => some '\r'
  | '0' => some '\x00'
  | _ => none

/-- The forms in which a character is shown. -/
inductive Shows (c : Char) : List Char → Prop where
  | letter {e : Char} (stands : ofLetter? e = some c) : Shows c ['\\', e]
  | plain (noQuote : c ≠ '"') (noBackslash : c ≠ '\\') : Shows c [c]
  | number : Shows c (byNumber c)

theorem shows_shown (c : Char) : Shows c (shown c) := by
  unfold shown
  repeat' split
  · next h => exact h ▸ .letter (e := '"') rfl
  · next h => exact h ▸ .letter (e := '\\') rfl
  · next h => exact h ▸ .letter (e := 't') rfl
  · next h => exact h ▸ .letter (e := 'n') rfl
  · next h => exact h ▸ .letter (e := 'r') rfl
  · next h => exact h ▸ .letter (e := '0') rfl
  · next hquote hbackslash _ _ _ _ _ => exact .plain hquote hbackslash
  · exact .number

variable {c d : Char} {u v s t : List Char}

theorem byNumber_append (c : Char) (s : List Char) :
    byNumber c ++ s = '\\' :: 'u' :: '\x7b' :: (Nat.toDigits 16 c.toNat ++ '\x7d' :: s) := by
  simp [byNumber]

/-- No form is the front of another one. -/
theorem Shows.append_cancel (hc : Shows c u) (hd : Shows d v) (h : u ++ s = v ++ t) :
    c = d ∧ s = t := by
  cases hc with
  | letter stands =>
    cases hd with
    | letter stands' =>
      obtain ⟨rfl, hst⟩ := List.cons.inj (List.cons.inj h).2
      exact ⟨Option.some.inj (stands.symm.trans stands'), hst⟩
    | plain _ noBackslash => exact absurd (List.cons.inj h).1.symm noBackslash
    | number =>
      rw [byNumber_append] at h
      obtain ⟨rfl, -⟩ := List.cons.inj (List.cons.inj h).2
      cases stands
  | plain _ noBackslash =>
    cases hd with
    | letter => exact absurd (List.cons.inj h).1 noBackslash
    | plain => exact List.cons.inj h
    | number => exact absurd (List.cons.inj h).1 noBackslash
  | number =>
    rw [byNumber_append] at h
    cases hd with
    | letter stands =>
      obtain ⟨rfl, -⟩ := List.cons.inj (List.cons.inj h).2
      cases stands
    | plain _ noBackslash => exact absurd (List.cons.inj h).1.symm noBackslash
    | number =>
      rw [byNumber_append] at h
      simp only [List.cons.injEq, true_and] at h
      -- The digits reach up to the first closing bracket.
      have hpieces := congrArg (pieces '\x7d') h
      rw [pieces_append_sep _ _ _ (not_bracket_mem_hexDigits _),
        pieces_append_sep _ _ _ (not_bracket_mem_hexDigits _)] at hpieces
      have hdigits := (List.cons.inj hpieces).1
      rw [hdigits] at h
      exact ⟨Char.toNat_inj.1 (hexDigits_injective hdigits),
        (List.cons.inj (List.append_cancel_left h)).2⟩

/-- No form starts like the quote that ends a text. -/
theorem Shows.ne_quote_cons (hc : Shows c u) : u ++ s ≠ '"' :: t := by
  intro h
  cases hc with
  | letter => simp at h
  | plain noQuote => exact noQuote (List.cons.inj h).1
  | number => simp [byNumber_append] at h

theorem flatMap_shown_injective {xs ys : List Char}
    (h : xs.flatMap shown ++ '"' :: s = ys.flatMap shown ++ '"' :: t) : xs = ys ∧ s = t := by
  induction xs generalizing ys with
  | nil =>
    cases ys with
    | nil => exact ⟨rfl, (List.cons.inj h).2⟩
    | cons d ys =>
      rw [List.flatMap_cons, List.append_assoc] at h
      exact absurd h.symm (shows_shown d).ne_quote_cons
  | cons c xs ih =>
    rw [List.flatMap_cons, List.append_assoc] at h
    cases ys with
    | nil => exact absurd h (shows_shown c).ne_quote_cons
    | cons d ys =>
      rw [List.flatMap_cons, List.append_assoc] at h
      obtain ⟨rfl, hrest⟩ := (shows_shown c).append_cancel (shows_shown d) h
      obtain ⟨rfl, hst⟩ := ih hrest
      exact ⟨rfl, hst⟩

theorem quoted_injective {a b : String} (h : quoted a = quoted b) : a = b := by
  obtain ⟨-, hplaces⟩ := List.cons.inj (String.ofList_injective h)
  exact String.toList_inj.1 (flatMap_shown_injective hplaces).1

end Ratchet.Text
