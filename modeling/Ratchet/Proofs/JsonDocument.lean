import Ratchet.Proofs.JsonNumber
import Ratchet.Proofs.JsonText

/-!
# Documents read back

A document is written in one piece or on lines of its own; both are one way of writing with
different white space (`Json.spaced`, `Json.compactChars_eq`, `Json.prettyChars_eq`). Whatever the
white space is, the reader takes off exactly one document and leaves what follows
(`Written.readValue_spaced`), in which every number has the digits it was written with and every text
its characters (`Json.written`).

So documents with one text were written with the same contents, and if all their numbers are finite
they are equal (`Json.eq_of_written`). A number that is not finite is written as `null`, and nothing
tells it from one.
-/

namespace Ratchet.Json

/-- A number that is not finite leaves nothing but a word. -/
def writtenNumber : Binary64 → Written
  | .finite neg m => .number (.ofMagnitude neg m)
  | _ => .word

mutual

def written : Json → Written
  | null => .word
  | number x => writtenNumber x
  | count n => .number (.ofCount n)
  | text s => .text (some s)
  | list items => .list (writtenItems items)
  | object fields => .object (writtenFields fields)

def writtenItems : List Json → List Written
  | [] => []
  | item :: rest => item.written :: writtenItems rest

def writtenFields : List (String × Json) → List (Option String × Written)
  | [] => []
  | (name, value) :: rest => (some name, value.written) :: writtenFields rest

end

/-! ## White space -/

def AllSpace (s : List Char) : Prop := ∀ c ∈ s, isSpace c = true

/-- Where white space goes in a document. -/
structure Spacing where
  /-- In front of what stands at a level. -/
  line : Nat → List Char
  /-- Between the colon of a field and its value. -/
  colon : List Char
  allSpace_line : ∀ level, AllSpace (line level)
  allSpace_colon : AllSpace colon

theorem allSpace_nil : AllSpace [] := fun _ h => by cases h

theorem allSpace_lineStart (level : Nat) : AllSpace (lineStart level) := by
  intro c hc
  rcases List.mem_cons.1 hc with rfl | hc
  · rfl
  · rw [List.eq_of_mem_replicate hc]
    rfl

def Spacing.none : Spacing := ⟨fun _ => [], [], fun _ => allSpace_nil, allSpace_nil⟩

/-- A line for every field and item. -/
def Spacing.lines : Spacing :=
  ⟨lineStart, [' '], allSpace_lineStart, fun _ hc => List.mem_singleton.1 hc ▸ rfl⟩

mutual

/-- A document with white space, at a level. -/
def spaced (sp : Spacing) (level : Nat) : Json → List Char
  | null => "null".toList
  | number x => numberChars x
  | count n => digits n
  | text s => textChars s
  | list [] => ['[', ']']
  | list (item :: rest) => '[' :: spacedItems sp level (item :: rest) ++ sp.line level ++ [']']
  | object [] => ['\x7b', '\x7d']
  | object (field :: rest) =>
    '\x7b' :: spacedFields sp level (field :: rest) ++ sp.line level ++ ['\x7d']

def spacedItems (sp : Spacing) (level : Nat) : List Json → List Char
  | [] => []
  | item :: rest =>
    sp.line (level + 1) ++ spaced sp (level + 1) item ++
      (if rest.isEmpty then [] else ',' :: spacedItems sp level rest)

def spacedFields (sp : Spacing) (level : Nat) : List (String × Json) → List Char
  | [] => []
  | (name, value) :: rest =>
    sp.line (level + 1) ++ textChars name ++ ':' :: sp.colon ++ spaced sp (level + 1) value ++
      (if rest.isEmpty then [] else ',' :: spacedFields sp level rest)

end

mutual

theorem prettyChars_eq (level : Nat) (j : Json) : j.prettyChars level = j.spaced .lines level := by
  match j with
  | null | number x | count n | text s | list [] | object [] => rfl
  | list (item :: rest) =>
    simp only [prettyChars, spaced, prettyItems_eq]
    rfl
  | object (field :: rest) =>
    simp only [prettyChars, spaced, prettyFields_eq]
    rfl

theorem prettyItems_eq (level : Nat) (items : List Json) :
    prettyItems level items = spacedItems .lines level items := by
  match items with
  | [] => rfl
  | item :: rest =>
    simp only [prettyItems, spacedItems, prettyChars_eq, prettyItems_eq]
    rfl

theorem prettyFields_eq (level : Nat) (fields : List (String × Json)) :
    prettyFields level fields = spacedFields .lines level fields := by
  match fields with
  | [] => rfl
  | (name, value) :: rest =>
    simp only [prettyFields, spacedFields, prettyChars_eq, prettyFields_eq]
    simp [Spacing.lines]

end

mutual

theorem compactChars_eq (level : Nat) (j : Json) : j.compactChars = j.spaced .none level := by
  match j with
  | null | number x | count n | text s | list [] | object [] => rfl
  | list (item :: rest) =>
    simp [compactChars, spaced, compactItems_eq level, Spacing.none]
  | object (field :: rest) =>
    simp [compactChars, spaced, compactFields_eq level, Spacing.none]

theorem compactItems_eq (level : Nat) (items : List Json) :
    compactItems items = spacedItems .none level items := by
  match items with
  | [] => rfl
  | item :: rest =>
    simp [compactItems, spacedItems, compactChars_eq (level + 1), compactItems_eq level,
      Spacing.none]

theorem compactFields_eq (level : Nat) (fields : List (String × Json)) :
    compactFields fields = spacedFields .none level fields := by
  match fields with
  | [] => rfl
  | (name, value) :: rest =>
    simp [compactFields, spacedFields, compactChars_eq (level + 1), compactFields_eq level,
      Spacing.none]

end

/-! ## Reading -/

namespace Written

variable {w s rest : List Char} {fuel : Nat}

theorem skipSpace_append (hw : AllSpace w) (s : List Char) : skipSpace (w ++ s) = skipSpace s :=
  List.dropWhile_append_of_pos hw

theorem skipSpace_cons {c : Char} (hc : isSpace c = false) (s : List Char) :
    skipSpace (c :: s) = c :: s :=
  List.dropWhile_cons_of_neg (by simp [hc])

theorem readValue_append (hw : AllSpace w) (s : List Char) :
    readValue fuel (w ++ s) = readValue fuel s := by
  cases fuel with
  | zero => rfl
  | succ fuel => rw [readValue, readValue, skipSpace_append hw]

theorem readItems_append (hw : AllSpace w) (s : List Char) :
    readItems fuel (w ++ s) = readItems fuel s := by
  cases fuel with
  | zero => rfl
  | succ fuel => rw [readItems, readItems, readValue_append hw]

theorem readFields_append (hw : AllSpace w) (s : List Char) :
    readFields fuel (w ++ s) = readFields fuel s := by
  cases fuel with
  | zero => rfl
  | succ fuel => rw [readFields, readFields, skipSpace_append hw]

theorem skipSpace_eq (s : List Char) : ∃ w, AllSpace w ∧ s = w ++ skipSpace s :=
  ⟨s.takeWhile isSpace, fun _ hc => List.all_eq_true.1 List.all_takeWhile _ hc,
    List.takeWhile_append_dropWhile.symm⟩

theorem readItems_skipSpace (s : List Char) : readItems fuel (skipSpace s) = readItems fuel s := by
  obtain ⟨w, hw, hs⟩ := skipSpace_eq s
  conv => rhs; rw [hs, readItems_append hw]

theorem readFields_skipSpace (s : List Char) : readFields fuel (skipSpace s) = readFields fuel s := by
  obtain ⟨w, hw, hs⟩ := skipSpace_eq s
  conv => rhs; rw [hs, readFields_append hw]

/-- What a number starts with. -/
def StartsNumber (c : Char) : Prop := c = '-' ∨ c.isDigit = true

theorem StartsNumber.ne {c d : Char} (h : StartsNumber c) (hd : d ≠ '-' ∧ d.isDigit = false) :
    c ≠ d := by
  rintro rfl
  rcases h with h | h
  · exact hd.1 h
  · rw [hd.2] at h
    cases h

theorem StartsNumber.isSpace {c : Char} (h : StartsNumber c) : isSpace c = false := by
  simp [Json.isSpace, h.ne (d := ' ') (by decide), h.ne (d := '\t') (by decide),
    h.ne (d := '\n') (by decide), h.ne (d := '\r') (by decide)]

theorem readWord_of_startsNumber {c : Char} (h : StartsNumber c) : readWord (c :: s) = none := by
  simp [readWord, takeWord, h.ne (d := 'n') (by decide), h.ne (d := 't') (by decide),
    h.ne (d := 'f') (by decide)]

theorem startsNumber_chars {t : NumberText} (h : t.WellFormed) :
    ∃ c rest, t.chars = c :: rest ∧ StartsNumber c := by
  obtain ⟨c, rest, hcons, hdigit⟩ := h.whole.head
  unfold NumberText.chars
  rw [hcons]
  cases t.neg with
  | true => exact ⟨'-', _, rfl, .inl rfl⟩
  | false => exact ⟨c, _, rfl, .inr hdigit⟩

theorem readValue_number {t : NumberText} (h : t.WellFormed) (hrest : NumberText.NumberEnd rest) :
    readValue (fuel + 1) (t.chars ++ rest) = some (.number t, rest) := by
  obtain ⟨c, later, hchars, hc⟩ := startsNumber_chars h
  have hread := NumberText.read_chars h hrest
  rw [hchars, List.cons_append] at hread ⊢
  rw [readValue, skipSpace_cons hc.isSpace]
  split
  · next heq => exact absurd (List.cons.inj heq).1 (hc.ne (by decide))
  · next heq => exact absurd (List.cons.inj heq).1 (hc.ne (by decide))
  · next heq => exact absurd (List.cons.inj heq).1 (hc.ne (by decide))
  · rw [readWord_of_startsNumber hc, hread]
    rfl

theorem readValue_null : readValue (fuel + 1) ("null".toList ++ rest) = some (.word, rest) := rfl

theorem readValue_text (s : String) :
    readValue (fuel + 1) (textChars s ++ rest) = some (.text (some s), rest) := by
  have hread := readText_escaped s rest
  have hchars : textChars s ++ rest = '"' :: (s.toList.flatMap escaped ++ '"' :: rest) := by
    simp [textChars]
  rw [hchars, readValue, skipSpace_cons (by decide)]
  simp only [hread, Option.map_some]

theorem numberChars_finite (neg : Bool) (m : Magnitude) :
    numberChars (.finite neg m) = (NumberText.ofMagnitude neg m).chars :=
  (NumberText.chars_ofMagnitude neg m).symm

theorem readValue_numberChars (x : Binary64) (hrest : NumberText.NumberEnd rest) :
    readValue (fuel + 1) (numberChars x ++ rest) = some (writtenNumber x, rest) := by
  cases x with
  | nan => rfl
  | inf neg => rfl
  | finite neg m =>
    rw [numberChars_finite]
    exact readValue_number (NumberText.wellFormed_ofMagnitude neg m) hrest

theorem readValue_count (n : Nat) (hrest : NumberText.NumberEnd rest) :
    readValue (fuel + 1) (digits n ++ rest) = some (.number (.ofCount n), rest) := by
  rw [← NumberText.chars_ofCount]
  exact readValue_number (NumberText.wellFormed_ofCount n) hrest

theorem readValue_list (h : ∀ later, skipSpace s ≠ ']' :: later) :
    readValue (fuel + 1) ('[' :: s) =
      (readItems fuel s).map fun (items, rest) => (.list items, rest) := by
  rw [readValue, skipSpace_cons (by decide), ← readItems_skipSpace]
  -- What follows the bracket is not a closing one, by `h`.
  simp only

theorem readValue_object (h : ∀ later, skipSpace s ≠ '\x7d' :: later) :
    readValue (fuel + 1) ('\x7b' :: s) =
      (readFields fuel s).map fun (fields, rest) => (.object fields, rest) := by
  rw [readValue, skipSpace_cons (by decide), ← readFields_skipSpace]
  -- What follows the bracket is not a closing one, by `h`.
  simp only

theorem readItems_last {later : List Char} {item : Written}
    (hitem : readValue fuel s = some (item, later)) (hclose : skipSpace later = ']' :: rest) :
    readItems (fuel + 1) s = some ([item], rest) := by
  simp only [readItems, hitem, bind, Option.bind_some, hclose]
  rfl

theorem readItems_cons {later more : List Char} {item : Written} {items : List Written}
    (hitem : readValue fuel s = some (item, later)) (hcomma : skipSpace later = ',' :: more)
    (hitems : readItems fuel more = some (items, rest)) :
    readItems (fuel + 1) s = some (item :: items, rest) := by
  simp only [readItems, hitem, bind, Option.bind_some, hcomma, hitems]
  rfl

theorem skipSpace_textChars (name : String) :
    skipSpace (textChars name ++ s) = '"' :: (name.toList.flatMap escaped ++ '"' :: s) := by
  simp only [textChars, List.cons_append, List.append_assoc, List.nil_append]
  exact skipSpace_cons (by decide) _

theorem readFields_last {later : List Char} {name : String} {value : Written}
    (hvalue : readValue fuel s = some (value, later)) (hclose : skipSpace later = '\x7d' :: rest) :
    readFields (fuel + 1) (textChars name ++ ':' :: s) = some ([(some name, value)], rest) := by
  simp only [readFields, skipSpace_textChars, readText_escaped, bind, Option.bind_some,
    skipSpace_cons (show isSpace ':' = false from rfl), hvalue, hclose]
  rfl

theorem readFields_cons {later more : List Char} {name : String} {value : Written}
    {fields : List (Option String × Written)} (hvalue : readValue fuel s = some (value, later))
    (hcomma : skipSpace later = ',' :: more) (hfields : readFields fuel more = some (fields, rest)) :
    readFields (fuel + 1) (textChars name ++ ':' :: s) =
      some ((some name, value) :: fields, rest) := by
  simp only [readFields, skipSpace_textChars, readText_escaped, bind, Option.bind_some,
    skipSpace_cons (show isSpace ':' = false from rfl), hvalue, hcomma, hfields]
  rfl

theorem numberEnd_cons {c : Char} (h : c.isDigit = false ∧ c ≠ '.' ∧ c ≠ 'e' ∧ c ≠ 'E') :
    NumberText.NumberEnd (c :: s) := by
  intro d hd
  cases hd
  exact h

theorem numberEnd_append (hw : AllSpace w) (hs : NumberText.NumberEnd s) :
    NumberText.NumberEnd (w ++ s) := by
  cases w with
  | nil => exact hs
  | cons c w =>
    have hspace := hw c List.mem_cons_self
    simp only [isSpace, Bool.or_eq_true, beq_iff_eq] at hspace
    obtain ((rfl | rfl) | rfl) | rfl := hspace <;> exact numberEnd_cons (by decide)

/-- No document starts with white space or with a closing bracket. -/
theorem spaced_head (sp : Spacing) (level : Nat) (j : Json) :
    ∃ c later, j.spaced sp level = c :: later ∧ isSpace c = false ∧ c ≠ ']' := by
  have hnumber {t : NumberText} (ht : t.WellFormed) :
      ∃ c later, t.chars = c :: later ∧ isSpace c = false ∧ c ≠ ']' := by
    obtain ⟨c, later, hchars, hc⟩ := startsNumber_chars ht
    exact ⟨c, later, hchars, hc.isSpace, hc.ne (by decide)⟩
  have hnull : ∃ c later, "null".toList = c :: later ∧ isSpace c = false ∧ c ≠ ']' :=
    ⟨'n', _, rfl, rfl, by decide⟩
  match j with
  | .null => exact hnull
  | .number x =>
    cases x with
    | nan => exact hnull
    | inf neg => exact hnull
    | finite neg m =>
      rw [spaced, numberChars_finite]
      exact hnumber (NumberText.wellFormed_ofMagnitude neg m)
  | .count n =>
    rw [spaced, ← NumberText.chars_ofCount]
    exact hnumber (NumberText.wellFormed_ofCount n)
  | .text s => exact ⟨'"', _, rfl, rfl, by decide⟩
  | .list [] => exact ⟨'[', _, rfl, rfl, by decide⟩
  | .list (item :: rest) => exact ⟨'[', _, rfl, rfl, by decide⟩
  | .object [] => exact ⟨'\x7b', _, rfl, rfl, by decide⟩
  | .object (field :: rest) => exact ⟨'\x7b', _, rfl, rfl, by decide⟩

theorem skipSpace_spacedItems (sp : Spacing) (level : Nat) (item : Json) (items : List Json)
    (s later : List Char) :
    skipSpace (spacedItems sp level (item :: items) ++ s) ≠ ']' :: later := by
  obtain ⟨c, tail, hhead, hspace, hbracket⟩ := spaced_head sp (level + 1) item
  unfold spacedItems
  rw [List.append_assoc, List.append_assoc, skipSpace_append (sp.allSpace_line _), hhead,
    List.cons_append, skipSpace_cons hspace]
  exact fun heq => hbracket (List.cons.inj heq).1

theorem skipSpace_spacedFields (sp : Spacing) (level : Nat) (field : String × Json)
    (fields : List (String × Json)) (s later : List Char) :
    skipSpace (spacedFields sp level (field :: fields) ++ s) ≠ '\x7d' :: later := by
  unfold spacedFields
  simp only [List.append_assoc]
  rw [skipSpace_append (sp.allSpace_line _), textChars, List.cons_append, List.cons_append,
    skipSpace_cons (by decide)]
  exact fun heq => absurd (List.cons.inj heq).1 (by decide)

mutual

/-- A document is taken off the front of what follows it. -/
theorem readValue_spaced (sp : Spacing) (level : Nat) (j : Json) {fuel : Nat} {rest : List Char}
    (hrest : NumberText.NumberEnd rest) (hfuel : 2 * (j.spaced sp level).length ≤ fuel) :
    readValue fuel (j.spaced sp level ++ rest) = some (j.written, rest) := by
  obtain ⟨c, later, hhead, -⟩ := spaced_head sp level j
  obtain ⟨fuel, rfl⟩ : ∃ n, fuel = n + 1 := by
    rw [hhead, List.length_cons] at hfuel
    exact ⟨fuel - 1, by omega⟩
  match j with
  | .null => exact readValue_null
  | .number x => exact readValue_numberChars x hrest
  | .count n => exact readValue_count n hrest
  | .text s => exact readValue_text s
  | .list [] => rfl
  | .object [] => rfl
  | .list (item :: items) =>
    have hchars : spaced sp level (.list (item :: items)) ++ rest =
        '[' :: (spacedItems sp level (item :: items) ++ (sp.line level ++ ']' :: rest)) := by
      simp [spaced]
    have hlength : 2 * (spacedItems sp level (item :: items)).length + 1 ≤ fuel := by
      simp only [spaced, List.length_append, List.length_cons] at hfuel
      omega
    rw [hchars, readValue_list (skipSpace_spacedItems sp level item items _),
      readItems_spaced sp level (item :: items) (by simp) hlength]
    rfl
  | .object (field :: fields) =>
    have hchars : spaced sp level (.object (field :: fields)) ++ rest =
        '\x7b' :: (spacedFields sp level (field :: fields) ++ (sp.line level ++ '\x7d' :: rest)) := by
      simp [spaced]
    have hlength : 2 * (spacedFields sp level (field :: fields)).length + 1 ≤ fuel := by
      simp only [spaced, List.length_append, List.length_cons] at hfuel
      omega
    rw [hchars, readValue_object (skipSpace_spacedFields sp level field fields _),
      readFields_spaced sp level (field :: fields) (by simp) hlength]
    rfl

theorem readItems_spaced (sp : Spacing) (level : Nat) (items : List Json) (hne : items ≠ [])
    {fuel : Nat} {rest : List Char}
    (hfuel : 2 * (spacedItems sp level items).length + 1 ≤ fuel) :
    readItems fuel (spacedItems sp level items ++ (sp.line level ++ ']' :: rest)) =
      some (writtenItems items, rest) := by
  match items, fuel with
  | item :: items, fuel + 1 =>
    simp only [spacedItems, List.length_append] at hfuel
    simp only [spacedItems, List.append_assoc]
    rw [readItems_append (sp.allSpace_line _)]
    cases items with
    | nil =>
      have hclose : skipSpace (sp.line level ++ ']' :: rest) = ']' :: rest := by
        rw [skipSpace_append (sp.allSpace_line _), skipSpace_cons (by decide)]
      have hend : NumberText.NumberEnd (sp.line level ++ ']' :: rest) :=
        numberEnd_append (sp.allSpace_line _) (numberEnd_cons (by decide))
      exact readItems_last (readValue_spaced sp (level + 1) item hend (by omega)) hclose
    | cons next items =>
      simp only [List.isEmpty_cons, Bool.false_eq_true, ↓reduceIte, List.length_cons] at hfuel
      have hend (s : List Char) : NumberText.NumberEnd (',' :: s) := numberEnd_cons (by decide)
      exact readItems_cons (readValue_spaced sp (level + 1) item (hend _) (by omega))
        (skipSpace_cons (by decide) _)
        (readItems_spaced sp level (next :: items) (by simp) (by omega))

theorem readFields_spaced (sp : Spacing) (level : Nat) (fields : List (String × Json))
    (hne : fields ≠ []) {fuel : Nat} {rest : List Char}
    (hfuel : 2 * (spacedFields sp level fields).length + 1 ≤ fuel) :
    readFields fuel (spacedFields sp level fields ++ (sp.line level ++ '\x7d' :: rest)) =
      some (writtenFields fields, rest) := by
  match fields, fuel with
  | (name, value) :: fields, fuel + 1 =>
    simp only [spacedFields, List.length_append, List.length_cons] at hfuel
    simp only [spacedFields, List.append_assoc, List.cons_append]
    rw [readFields_append (sp.allSpace_line _)]
    cases fields with
    | nil =>
      have hclose : skipSpace (sp.line level ++ '\x7d' :: rest) = '\x7d' :: rest := by
        rw [skipSpace_append (sp.allSpace_line _), skipSpace_cons (by decide)]
      have hend : NumberText.NumberEnd (sp.line level ++ '\x7d' :: rest) :=
        numberEnd_append (sp.allSpace_line _) (numberEnd_cons (by decide))
      have hlength : 2 * (value.spaced sp (level + 1)).length ≤ fuel := by omega
      have hvalue := readValue_spaced sp (level + 1) value hend hlength
      exact readFields_last ((readValue_append sp.allSpace_colon _).trans hvalue) hclose
    | cons next fields =>
      simp only [List.isEmpty_cons, Bool.false_eq_true, ↓reduceIte, List.length_cons] at hfuel
      have hend (s : List Char) : NumberText.NumberEnd (',' :: s) := numberEnd_cons (by decide)
      have hlength : 2 * (value.spaced sp (level + 1)).length ≤ fuel := by omega
      have hvalue (s : List Char) := readValue_spaced sp (level + 1) value (hend s) hlength
      exact readFields_cons ((readValue_append sp.allSpace_colon _).trans (hvalue _))
        (skipSpace_cons (by decide) _)
        (readFields_spaced sp level (next :: fields) (by simp) (by omega))

end

/-- A whole text with one document in it, and white space behind it. -/
theorem read?_spaced (sp : Spacing) (j : Json) (hw : AllSpace w) :
    read? (String.ofList (j.spaced sp 0 ++ w)) = some j.written := by
  have hend : NumberText.NumberEnd w := by
    simpa using numberEnd_append hw (s := []) fun c hc => by cases hc
  have hskip : skipSpace w = [] := by
    have hall := skipSpace_append hw []
    rwa [List.append_nil] at hall
  have hlength : 2 * (j.spaced sp 0).length ≤
      2 * (String.ofList (j.spaced sp 0 ++ w)).length + 2 := by
    rw [String.length_ofList, List.length_append]
    omega
  unfold read?
  rw [String.toList_ofList, readValue_spaced sp 0 j hend hlength]
  simp [hskip]

theorem read?_compact (j : Json) : read? j.compact = some j.written := by
  have hread := read?_spaced .none j allSpace_nil
  rwa [List.append_nil, ← compactChars_eq] at hread

theorem read?_pretty (j : Json) : read? j.pretty = some j.written := by
  have hread := read?_spaced .lines j allSpace_nil
  rwa [List.append_nil, ← prettyChars_eq] at hread

end Written

/-! ## Telling documents apart -/

/-- A document in which every number is finite. -/
inductive Finite : Json → Prop where
  | null : Finite null
  | number (x : Binary64) (h : x.isFinite = true) : Finite (number x)
  | count (n : Nat) : Finite (count n)
  | text (s : String) : Finite (text s)
  | list (items : List Json) (h : ∀ item ∈ items, item.Finite) : Finite (list items)
  | object (fields : List (String × Json)) (h : ∀ f ∈ fields, f.2.Finite) : Finite (object fields)

theorem writtenNumber_of_isFinite {x : Binary64} (h : x.isFinite = true) :
    ∃ neg m, x = .finite neg m ∧ writtenNumber x = .number (.ofMagnitude neg m) := by
  cases x with
  | nan => cases h
  | inf neg => cases h
  | finite neg m => exact ⟨neg, m, rfl, rfl⟩

theorem eq_of_writtenNumber {x : Binary64} {j : Json} (hx : x.isFinite = true) (hj : j.Finite)
    (heq : writtenNumber x = j.written) : number x = j := by
  obtain ⟨neg, m, rfl, -⟩ := writtenNumber_of_isFinite hx
  cases hj with
  | null | text | list | object => cases heq
  | number y hy =>
    obtain ⟨neg', m', rfl, -⟩ := writtenNumber_of_isFinite hy
    exact congrArg number (NumberText.ofMagnitude_injective (Written.number.inj heq))
  | count n => exact absurd (Written.number.inj heq) (NumberText.ofDecimal_ne_ofCount _ _ n)

mutual

/-- What a document was read as tells which one it is. -/
theorem eq_of_written (j : Json) {j' : Json} (h : j.Finite) (h' : j'.Finite)
    (heq : j.written = j'.written) : j = j' := by
  match j, h with
  | .number x, .number _ hx => exact eq_of_writtenNumber hx h' heq
  | .null, _ =>
    cases h' with
    | null => rfl
    | number x hx => cases eq_of_writtenNumber hx .null heq.symm
    | count | text | list | object => cases heq
  | .count n, h =>
    cases h' with
    | count n' => exact congrArg count (NumberText.ofCount_injective (Written.number.inj heq))
    | number x hx => exact (eq_of_writtenNumber hx h heq.symm).symm
    | null | text | list | object => cases heq
  | .text s, _ =>
    cases h' with
    | text s' => exact congrArg text (Option.some.inj (Written.text.inj heq))
    | number x hx => cases eq_of_writtenNumber hx (.text s) heq.symm
    | null | count | list | object => cases heq
  | .list items, .list _ hitems =>
    cases h' with
    | list items' hitems' =>
      exact congrArg list (eq_of_writtenItems items hitems hitems' (Written.list.inj heq))
    | number x hx => cases eq_of_writtenNumber hx (.list items hitems) heq.symm
    | null | count | text | object => cases heq
  | .object fields, .object _ hfields =>
    cases h' with
    | object fields' hfields' =>
      exact congrArg object (eq_of_writtenFields fields hfields hfields' (Written.object.inj heq))
    | number x hx => cases eq_of_writtenNumber hx (.object fields hfields) heq.symm
    | null | count | text | list => cases heq

theorem eq_of_writtenItems (items : List Json) {items' : List Json}
    (h : ∀ item ∈ items, item.Finite) (h' : ∀ item ∈ items', item.Finite)
    (heq : writtenItems items = writtenItems items') : items = items' := by
  match items, items' with
  | [], [] => rfl
  | item :: rest, item' :: rest' =>
    obtain ⟨hitem, hrest⟩ := List.forall_mem_cons.1 h
    obtain ⟨hitem', hrest'⟩ := List.forall_mem_cons.1 h'
    obtain ⟨hhead, htail⟩ := List.cons.inj heq
    rw [eq_of_written item hitem hitem' hhead, eq_of_writtenItems rest hrest hrest' htail]

theorem eq_of_writtenFields (fields : List (String × Json)) {fields' : List (String × Json)}
    (h : ∀ f ∈ fields, f.2.Finite) (h' : ∀ f ∈ fields', f.2.Finite)
    (heq : writtenFields fields = writtenFields fields') : fields = fields' := by
  match fields, fields' with
  | [], [] => rfl
  | (name, value) :: rest, (name', value') :: rest' =>
    obtain ⟨hvalue, hrest⟩ := List.forall_mem_cons.1 h
    obtain ⟨hvalue', hrest'⟩ := List.forall_mem_cons.1 h'
    obtain ⟨hhead, htail⟩ := List.cons.inj heq
    obtain ⟨hname, hwritten⟩ := Prod.mk.inj hhead
    rw [Option.some.inj hname, eq_of_written value hvalue hvalue' hwritten,
      eq_of_writtenFields rest hrest hrest' htail]

end

end Ratchet.Json
