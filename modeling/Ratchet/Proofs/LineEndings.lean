import Ratchet.Proofs.BaselineFormat
import Ratchet.Proofs.Bytes
import Ratchet.Proofs.MeasurementFormat
import Ratchet.Proofs.Tally

/-!
# Line endings

A carriage return in front of every line feed (`Text.withReturns`) puts at most one more carriage
return at the end of a line: the line end takes the new one, and leaves an old one that it took
before (`Text.returned_lines`). A reader may take it for a part of the line end, take it off the
line, or have it at the end of the last field, where it is white space. So a measurement line and a
baseline line read as before, but for the text that a fault shows (`Observation.read_push_return`,
`Baseline.readLine_append_return`), and a run over all lines comes to the same.

Both runs are by induction on the pairs of lines. A stream may also hold lines that are not text;
these are none with the carriage return either.
-/

namespace Ratchet

namespace Text

variable {α : Type} [DecidableEq α] {feed ret : α} {s l l' : List α}

/-- A text with a carriage return in front of every line feed. -/
def withReturns (feed ret : α) (s : List α) : List α :=
  s.flatMap fun c => if c = feed then [ret, feed] else [c]

theorem withReturns_of_not_mem (h : feed ∉ s) : withReturns feed ret s = s := by
  induction s with
  | nil => rfl
  | cons c rest ih =>
    have hc : c ≠ feed := fun e => h (e ▸ List.mem_cons_self)
    have hrest := ih fun e => h (List.mem_cons_of_mem _ e)
    unfold withReturns at hrest ⊢
    rw [List.flatMap_cons, if_neg hc, hrest, List.singleton_append]

theorem withReturns_append_feed (h : feed ∉ l) (s : List α) :
    withReturns feed ret (l ++ feed :: s) =
      (l ++ [ret]) ++ feed :: withReturns feed ret s := by
  have hl : withReturns feed ret l = l := withReturns_of_not_mem h
  unfold withReturns at hl ⊢
  rw [List.flatMap_append, hl, List.flatMap_cons, if_pos rfl]
  simp

/-- A line may have one more carriage return at its end. -/
def Returned (ret : α) (l l' : List α) : Prop := l' = l ∨ l' = l ++ [ret]

theorem returned_dropEnd_self (ret : α) (l : List α) : Returned ret (dropEnd ret l) l :=
  (eq_dropEnd ret l).elim .inr fun h => .inl h.1

theorem Returned.dropEnd (h : Returned ret l l') :
    Returned ret (dropEnd ret l) (dropEnd ret l') := by
  rcases h with rfl | rfl
  · exact .inl rfl
  · rw [dropEnd_concat]
    exact returned_dropEnd_self ret l

theorem LinesOf.exists_returned {ls : List (List α)} (h : LinesOf feed ret s ls)
    (hne : feed ≠ ret) :
    ∃ ls', LinesOf feed ret (withReturns feed ret s) ls' ∧ List.Forall₂ (Returned ret) ls ls' := by
  induction h with
  | nil => exact ⟨[], .nil, .nil⟩
  | @last l hl hfeed =>
    rw [withReturns_of_not_mem hfeed]
    exact ⟨[l], .last hl hfeed, .cons (.inl rfl) .nil⟩
  | @feed l s ls hfeed _ ih =>
    obtain ⟨ls', hls', hreturned⟩ := ih
    have hfeed' : feed ∉ l ++ [ret] := by
      rw [List.mem_append, List.mem_singleton]
      exact not_or.2 ⟨hfeed, hne⟩
    have hlines := LinesOf.feed hfeed' hls'
    rw [dropEnd_concat] at hlines
    rw [withReturns_append_feed hfeed]
    exact ⟨l :: ls', hlines, .cons (returned_dropEnd_self ret l) hreturned⟩

theorem returned_lines (hne : feed ≠ ret) (s : List α) :
    List.Forall₂ (Returned ret) (lines feed ret s)
      (lines feed ret (withReturns feed ret s)) := by
  obtain ⟨ls', hls', hreturned⟩ := (linesOf_lines s).exists_returned hne
  rwa [linesOf_iff.1 hls'] at hreturned

end Text

/-! ## Measurement lines -/

namespace Observation

variable {text name field : List Char}

theorem Fields.append_return (h : Fields text name field) :
    Fields (text ++ ['\r']) name (field ++ ['\r']) where
  text_eq := by rw [h.text_eq]; simp
  name_free := h.name_free
  field_free := by simpa using h.field_free

theorem holds_append_return {n : Numeral} : Holds (field ++ ['\r']) n ↔ Holds field n := by
  rw [holds_iff, holds_iff, Text.trim_append_blank rfl]

theorem Reads.append_return {r : Except Flaw Observation} (h : Reads text r) :
    Reads (text ++ ['\r']) r := by
  cases h with
  | separators hcount =>
    have heq : (text ++ ['\r']).count ':' = text.count ':' := by simp
    exact .separators (heq ▸ hcount)
  | emptyName h => exact .emptyName h.append_return
  | tabInName h htab => exact .tabInName h.append_return htab
  | notANumber h hname htab hnumber =>
    exact .notANumber h.append_return hname htab fun n => mt holds_append_return.1 (hnumber n)
  | notFinite h hname htab hn hfinite =>
    exact .notFinite h.append_return hname htab (holds_append_return.2 hn) hfinite
  | observation h hname htab hn hfinite =>
    exact .observation h.append_return hname htab (holds_append_return.2 hn) hfinite

theorem read_push_return (line : String) : read (line.push '\r') = read line := by
  have hreads : Reads (Text.dropEnd '\r' line.toList) (read line) := reads_iff.2 rfl
  refine reads_iff.1 ?_
  rw [String.toList_push, Text.dropEnd_concat]
  rcases Text.eq_dropEnd '\r' line.toList with heq | ⟨heq, -⟩
  · rw [heq]
    exact hreads.append_return
  · rwa [← heq] at hreads

variable {line line' : Bytes}

theorem ofBytes?_of_returned (h : Text.Returned 13 line line') :
    ofBytes? line' = ofBytes? line := by
  rcases h with rfl | rfl
  · rfl
  · unfold ofBytes?
    rw [Bytes.toText?_append_return]
    cases line.toText? with
    | none => rfl
    | some text => exact congrArg Except.toOption (read_push_return text)

end Observation

/-- The same outcome, except that a fault may show its line with one more carriage return. -/
inductive Tally.SameOutcome : Except Fault Nat → Except Fault Nat → Prop where
  | same (outcome : Except Fault Nat) : SameOutcome outcome outcome
  | content (number : Nat) (content reason : String) :
      SameOutcome (.error (.measurement number content reason))
        (.error (.measurement number (content.push '\r') reason))

theorem Observation.Refused.returned {number : Nat} {line line' : Bytes} {fault : Fault}
    (h : Refused number line fault) (hline : Text.Returned 13 line line') :
    ∃ fault', Refused number line' fault' ∧
      Tally.SameOutcome (.error fault) (.error fault') := by
  rcases hline with rfl | rfl
  · exact ⟨fault, h, .same _⟩
  · have hmap := Bytes.toText?_append_return line
    cases h with
    | notText htext =>
      rw [htext] at hmap
      exact ⟨_, .notText hmap, .same _⟩
    | @flawed text flaw htext hflaw =>
      rw [htext] at hmap
      exact ⟨_, .flawed hmap ((read_push_return text).trans hflaw), .content _ _ _⟩

namespace Tally

theorem exists_same_reading {lines lines' : List Bytes}
    (h : List.Forall₂ (Text.Returned 13) lines lines') (before : Nat) :
    ∃ obs outcome outcome', Reading before lines obs outcome ∧
      Reading before lines' obs outcome' ∧ SameOutcome outcome outcome' := by
  induction h generalizing before with
  | nil => exact ⟨[], _, _, .complete rfl, .complete rfl, .same _⟩
  | @cons line line' rest rest' hline _ ih =>
    cases hread : Observation.readBytes (before + 1) line with
    | ok o =>
      obtain ⟨obs, outcome, outcome', hreading, hreading', hsame⟩ := ih (before + 1)
      have ho := Observation.readBytes_eq_ok.1 hread
      have ho' := (Observation.ofBytes?_of_returned hline).trans ho
      exact ⟨o :: obs, outcome, outcome', hreading.cons ho, hreading'.cons ho', hsame⟩
    | error fault =>
      have hrefused := Observation.readBytes_eq_error.1 hread
      obtain ⟨fault', hrefused', hsame⟩ := hrefused.returned hline
      have hstopped : Reading before ([] ++ line :: rest) [] (.error fault) :=
        .stopped rfl hrefused
      have hstopped' : Reading before ([] ++ line' :: rest') [] (.error fault') :=
        .stopped rfl hrefused'
      exact ⟨[], _, _, hstopped, hstopped', hsame⟩

end Tally

/-! ## Baseline texts -/

namespace Baseline

theorem readLine_append_return (line : List Char) :
    readLine (line ++ ['\r']) = withReturn (readLine line) :=
  readsLine_iff.1 (readsLine_iff.2 rfl : ReadsLine line _).append_return

/-- The same reading, except that a flaw may show its field with one more carriage return. -/
inductive SameReading : Reading → Reading → Prop where
  | same (reading : Reading) : SameReading reading reading
  | field (number : Nat) (field : String) (notices : List Notice) :
      SameReading ⟨.error (number, .stddev field), notices⟩
        ⟨.error (number, .stddev (field.push '\r')), notices⟩

theorem SameReading.notices_append {reading reading' : Reading} (h : SameReading reading reading')
    (notices : List Notice) :
    SameReading ⟨reading.outcome, notices ++ reading.notices⟩
      ⟨reading'.outcome, notices ++ reading'.notices⟩ := by
  cases h with
  | same => exact .same _
  | field => exact .field _ _ _

theorem sameReading_withReturn (flaw : Flaw) (number : Nat) (notices : List Notice) :
    ∃ flaw', withReturn (.error flaw) = .error flaw' ∧
      SameReading ⟨.error (number, flaw), notices⟩ ⟨.error (number, flaw'), notices⟩ := by
  cases flaw with
  | fieldCount => exact ⟨_, rfl, .same _⟩
  | mean => exact ⟨_, rfl, .same _⟩
  | stddev => exact ⟨_, rfl, .field _ _ _⟩

theorem readLines_of_flaw {line : List Char} {flaw : Flaw} (h : readLine line = .error flaw)
    (b : Baseline) (before : Nat) (rest : List (List Char)) :
    readLines b before (line :: rest) = ⟨.error (before + 1, flaw), []⟩ := by
  rw [readLines, h]

theorem sameReading_of_returned {lines lines' : List (List Char)}
    (h : List.Forall₂ (Text.Returned '\r') lines lines') (b : Baseline) (before : Nat) :
    SameReading (readLines b before lines) (readLines b before lines') := by
  induction h generalizing b before with
  | nil => exact .same _
  | @cons line line' rest rest' hline _ ih =>
    have hread' : readLine line' = readLine line ∨ readLine line' = withReturn (readLine line) := by
      rcases hline with rfl | rfl
      · exact .inl rfl
      · exact .inr (readLine_append_return line)
    cases hread : readLine line with
    | ok e =>
      rw [hread] at hread'
      rw [readLines, readLines, hread, hread'.elim id id]
      exact (ih _ _).notices_append _
    | error flaw =>
      rw [hread] at hread'
      rw [readLines_of_flaw hread]
      rcases hread' with hsame | hreturned
      · rw [readLines_of_flaw hsame]
        exact .same _
      · obtain ⟨flaw', hflaw', hsame⟩ := sameReading_withReturn flaw (before + 1) []
        rw [readLines_of_flaw (hreturned.trans hflaw')]
        exact hsame

theorem returned_textLines {content content' : String}
    (h : content'.toList = Text.withReturns '\n' '\r' content.toList) :
    List.Forall₂ (Text.Returned '\r') (textLines content) (textLines content') := by
  unfold textLines
  rw [h, List.forall₂_map_left_iff, List.forall₂_map_right_iff]
  exact (Text.returned_lines (by decide) content.toList).imp fun _ _ hline => hline.dropEnd

end Baseline

/-- A carriage return in front of every line feed makes no difference. A stream leaves the same
observations in a tally, with the same outcome: the number of its lines, or a fault of the same line
for the same reason, whose content may show the carriage return. A baseline text reads as the same
baseline with the same notices, or has a flaw in the same line with the same notices up to it; the
flaw is the same, and its field may show the carriage return. -/
theorem same_with_returns :
    (∀ (t : Tally) (stream : Bytes),
      let stream' := Text.withReturns 10 13 stream
      ∃ obs outcome outcome',
        Tally.Reading 0 (Tally.streamLines stream) obs outcome ∧
        Tally.Reading 0 (Tally.streamLines stream') obs outcome' ∧
        Tally.SameOutcome outcome outcome' ∧
        t.readStream stream = (obs.foldl Tally.record t, outcome) ∧
        t.readStream stream' = (obs.foldl Tally.record t, outcome')) ∧
    ∀ content : String,
      let content' := String.ofList (Text.withReturns '\n' '\r' content.toList)
      Baseline.SameReading (Baseline.read content) (Baseline.read content') := by
  constructor
  · intro t stream stream'
    have hreturned : List.Forall₂ (Text.Returned 13) (Tally.streamLines stream)
        (Tally.streamLines stream') := Text.returned_lines (by decide) stream
    obtain ⟨obs, outcome, outcome', hreading, hreading', hsame⟩ :=
      Tally.exists_same_reading hreturned 0
    exact ⟨obs, outcome, outcome', hreading, hreading', hsame,
      Tally.readLines_of_reading hreading t, Tally.readLines_of_reading hreading' t⟩
  · intro content content'
    exact Baseline.sameReading_of_returned (Baseline.returned_textLines String.toList_ofList) _ _

end Ratchet
