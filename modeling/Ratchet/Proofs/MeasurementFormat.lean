import Ratchet.Observation
import Ratchet.Proofs.DecimalRange
import Ratchet.Proofs.Lines
import Ratchet.Proofs.NumberGrammar

/-!
# The format of a measurement line

`Reads` says what a measurement line stands for without saying how it is read: a line with one colon
has a name in front of it and a field behind it, and the flaw of any other line is looked for in its
colons, its name and its field, in this order. The relation gives one result for every line
(`reads_iff`), and with the carriage return that may end a line this is what reading gives
(`readLine_exactly_grammar`).
-/

namespace Ratchet.Observation

/-- A text with one colon, cut at it. -/
structure Fields (text name field : List Char) : Prop where
  text_eq : text = name ++ ':' :: field
  name_free : ':' ∉ name
  field_free : ':' ∉ field

variable {text name field : List Char}

theorem Fields.pieces (h : Fields text name field) : Text.pieces ':' text = [name, field] := by
  rw [h.text_eq, Text.pieces_append_sep _ _ _ h.name_free,
    Text.pieces_eq_singleton _ _ h.field_free]

theorem exists_fields_iff : (∃ name field, Fields text name field) ↔ text.count ':' = 1 := by
  constructor
  · rintro ⟨name, field, h⟩
    exact Nat.succ.inj (Text.count_of_pieces h.pieces)
  · intro hcount
    obtain ⟨name, field, rfl, hname, hfield⟩ := Text.exists_cut_of_count hcount
    exact ⟨name, field, rfl, hname, List.count_eq_zero.1 hfield⟩

/-- A field of nothing but a number and white space around it. -/
structure HoldsNumber (field front word back : List Char) (n : Numeral) : Prop where
  field_eq : field = front ++ (word ++ back)
  front_blank : ∀ c ∈ front, Text.isBlank c = true
  back_blank : ∀ c ∈ back, Text.isBlank c = true
  spells : Numeral.Spells word n

theorem HoldsNumber.read?_trim {front word back : List Char} {n : Numeral}
    (h : HoldsNumber field front word back n) : Numeral.read? (Text.trim field) = some n := by
  have hread : Numeral.read? word = some n := Numeral.read?_eq_some_iff.2 h.spells
  rw [h.field_eq, Text.trim_append h.front_blank h.back_blank,
    Text.trim_eq_self (Numeral.not_blank_of_read? hread), hread]

/-- A field holds a number. -/
def Holds (field : List Char) (n : Numeral) : Prop :=
  ∃ front word back, HoldsNumber field front word back n

theorem holds_iff {n : Numeral} : Holds field n ↔ Numeral.read? (Text.trim field) = some n := by
  constructor
  · rintro ⟨front, word, back, h⟩
    exact h.read?_trim
  · intro h
    obtain ⟨front, back, hfield, hfront, hback⟩ := Text.exists_trim field
    exact ⟨front, _, back, hfield, hfront, hback, Numeral.read?_eq_some_iff.1 h⟩

theorem not_holds_iff : (∀ n, ¬ Holds field n) ↔ Numeral.read? (Text.trim field) = none := by
  simp only [Option.eq_none_iff_forall_ne_some, ne_eq, holds_iff]

/-! ## Lines -/

/-- What a line reads as, once its line end is off: its observation, or the first of its flaws. -/
inductive Reads (text : List Char) : Except Flaw Observation → Prop where
  | separators : text.count ':' ≠ 1 → Reads text (.error .separators)
  | emptyName {field : List Char} : Fields text [] field → Reads text (.error .emptyName)
  | tabInName {name field : List Char} : Fields text name field → '\t' ∈ name →
      Reads text (.error .tabInName)
  | notANumber {name field : List Char} : Fields text name field → name ≠ [] → '\t' ∉ name →
      (∀ n, ¬ Holds field n) → Reads text (.error .notANumber)
  | notFinite {name field : List Char} {n : Numeral} : Fields text name field → name ≠ [] →
      '\t' ∉ name → Holds field n → ¬ n.toBinary64.isFinite → Reads text (.error .notFinite)
  | observation {name field : List Char} {n : Numeral} : Fields text name field → name ≠ [] →
      '\t' ∉ name → Holds field n → n.toBinary64.isFinite →
      Reads text (.ok ⟨String.ofList name, n.toBinary64⟩)

theorem exists_reads (text : List Char) : ∃ r, Reads text r := by
  by_cases hcount : text.count ':' = 1
  · obtain ⟨name, field, h⟩ := exists_fields_iff.2 hcount
    by_cases hname : name = []
    · subst hname
      exact ⟨_, .emptyName h⟩
    by_cases htab : '\t' ∈ name
    · exact ⟨_, .tabInName h htab⟩
    by_cases hnumber : ∃ n, Holds field n
    · obtain ⟨n, hn⟩ := hnumber
      by_cases hfinite : n.toBinary64.isFinite
      · exact ⟨_, .observation h hname htab hn hfinite⟩
      · exact ⟨_, .notFinite h hname htab hn hfinite⟩
    · exact ⟨_, .notANumber h hname htab (not_exists.1 hnumber)⟩
  · exact ⟨_, .separators hcount⟩

theorem Reads.read_eq {line : String} {r : Except Flaw Observation}
    (h : Reads (Text.dropEnd '\r' line.toList) r) : read line = r := by
  unfold read readValue Binary64.read?
  generalize Text.dropEnd '\r' line.toList = text at h
  cases h with
  | separators hcount =>
    split
    · next hpieces => exact absurd (Nat.succ.inj (Text.count_of_pieces hpieces)) hcount
    · rfl
  | emptyName h => simp only [h.pieces, ↓reduceIte]
  | tabInName h htab => simp only [h.pieces, List.ne_nil_of_mem htab, htab, ↓reduceIte]
  | notANumber h hname htab hnumber =>
    simp only [h.pieces, hname, htab, not_holds_iff.1 hnumber, ↓reduceIte]
    rfl
  | notFinite h hname htab hn hfinite =>
    simp only [h.pieces, hname, htab, holds_iff.1 hn, Option.map_some, hfinite, ↓reduceIte]
    rfl
  | observation h hname htab hn hfinite =>
    simp only [h.pieces, hname, htab, holds_iff.1 hn, Option.map_some, hfinite, ↓reduceIte]
    rfl

theorem reads_iff {line : String} {r : Except Flaw Observation} :
    Reads (Text.dropEnd '\r' line.toList) r ↔ read line = r := by
  refine ⟨Reads.read_eq, ?_⟩
  rintro rfl
  obtain ⟨r, h⟩ := exists_reads (Text.dropEnd '\r' line.toList)
  exact h.read_eq ▸ h

theorem readLine_eq_ok_iff {number : Nat} {line : String} {o : Observation} :
    readLine number line = .ok o ↔ read line = .ok o := by
  unfold readLine
  split <;> simp [*]

theorem readLine_eq_error_iff {number : Nat} {line : String} {fault : Fault} :
    readLine number line = .error fault ↔
      ∃ flaw : Flaw, read line = .error flaw ∧ fault = .measurement number line flaw.reason := by
  unfold readLine
  split <;> simp [*, eq_comm]

/-- The reason in a fault tells which flaw the line has. -/
theorem readLine_eq_measurement_iff {number : Nat} {line : String} {flaw : Flaw} :
    readLine number line = .error (.measurement number line flaw.reason) ↔
      read line = .error flaw := by
  rw [readLine_eq_error_iff]
  constructor
  · rintro ⟨flaw', hread, hfault⟩
    rw [hread, Flaw.reason_injective (Fault.measurement.inj hfault).2.2]
  · exact fun hread => ⟨flaw, hread, rfl⟩

/-- A line reads as the grammar says, once at most one carriage return is off its end: as the
observation of its name and number, or with the first of its flaws, in a fault that shows the whole
line and has a text for each flaw. A number is finite unless it is a word or at least half a last
digit above the greatest double. -/
theorem readLine_exactly_grammar (number : Nat) (line : String) :
    ∃ text, (line.toList = text ++ ['\r'] ∨
        line.toList = text ∧ text.getLast? ≠ some '\r') ∧
      (∀ o, readLine number line = .ok o ↔ Reads text (.ok o)) ∧
      (∀ fault, readLine number line = .error fault ↔
        ∃ flaw : Flaw, Reads text (.error flaw) ∧
          fault = .measurement number line flaw.reason) ∧
      (∀ e ∈ [(Flaw.separators, "expected exactly one ':' separating <name>:<value>"),
          (.emptyName, "empty metric name"), (.tabInName, "metric name contains a tab"),
          (.notANumber, "value is not a number"), (.notFinite, "value is not finite")],
        readLine number line = .error (.measurement number line e.2) ↔ Reads text (.error e.1)) ∧
      ∀ n : Numeral, n.toBinary64.isFinite ↔ n.InRange := by
  refine ⟨_, Text.eq_dropEnd '\r' line.toList, fun o => ?_, fun fault => ?_, fun e he => ?_,
    fun n => Numeral.isFinite_toBinary64_iff⟩
  · rw [readLine_eq_ok_iff, reads_iff]
  · simp only [readLine_eq_error_iff, reads_iff]
  · have hreason : e.2 = e.1.reason := by
      simp only [List.mem_cons, List.not_mem_nil, or_false] at he
      rcases he with rfl | rfl | rfl | rfl | rfl <;> rfl
    rw [hreason, readLine_eq_measurement_iff, reads_iff]

/-- Of two carriage returns one is white space. Half a last digit above the greatest double is out
of range, and anything less is not. -/
example :
    read "a:\u00a0+.5e1\r\r" = .ok ⟨"a", .ofNat 5⟩ ∧ read "a\tb:" = .error .tabInName ∧
      read ":\t:" = .error .separators ∧ read "a: 1_0" = .error .notANumber ∧
      read "a:1e999" = .error .notFinite ∧ read "a:-INFinity" = .error .notFinite := by
  decide +kernel

end Ratchet.Observation
