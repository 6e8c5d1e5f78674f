import Ratchet.Recorder
import Ratchet.Proofs.Bytes
import Ratchet.Proofs.NumberText
import Ratchet.Proofs.Tally

/-!
# Reports of recorders as measurement lines

A recorder reports its average on a line of its own, and the gate reads such lines. The line has the
colon behind the name for its only one unless the name holds another (`pieces_reportLine`), and its
last character belongs to a number, which no carriage return does. So the line is an observation of
the average exactly if the recorder is `Readable`, and the reports of such recorders, one behind the
other, make a stream with one line for each of them as long as no name breaks a line.
-/

namespace Ratchet.Recorder

/-- Neither the name nor the average spoils the measurement line. -/
def Readable (r : Recorder) : Prop :=
  ':' ∉ r.name.toList ∧ '\t' ∉ r.name.toList ∧ r.average.isFinite

instance (r : Recorder) : Decidable r.Readable := inferInstanceAs (Decidable (_ ∧ _))

/-- What a report stands for: the marked name and the average. -/
def observation (r : Recorder) : Observation := ⟨mark ++ r.name, r.average⟩

variable {r : Recorder} {rs : List Recorder}

theorem toList_reportLine (r : Recorder) :
    r.reportLine.toList =
      (mark ++ r.name).toList ++ ':' :: ' ' :: r.average.plain.toList := by
  simp [reportLine]

theorem getLast?_reportLine_ne (r : Recorder) : r.reportLine.toList.getLast? ≠ some '\r' := by
  have hsplit : r.reportLine.toList =
      ((mark ++ r.name).toList ++ [':', ' ']) ++ Layout.plain.number r.average := by
    rw [toList_reportLine, Binary64.toList_plain, List.append_assoc]
    rfl
  have hsome := List.getLast?_isSome.2 (Layout.number_ne_nil Layout.plain r.average)
  rw [hsplit, List.getLast?_append, Option.or_of_isSome hsome]
  intro h
  cases Layout.not_blank_of_mem_number Layout.plain (List.mem_of_getLast? h)

theorem pieces_reportLine (h : ':' ∉ r.name.toList) :
    Text.pieces ':' (Text.dropEnd '\r' r.reportLine.toList) =
      [(mark ++ r.name).toList, ' ' :: Layout.plain.number r.average] := by
  have hname : ':' ∉ (mark ++ r.name).toList := by
    rw [String.toList_append]
    exact List.not_mem_append (by decide) h
  have hfield : ':' ∉ ' ' :: Layout.plain.number r.average :=
    List.not_mem_cons_of_ne_of_not_mem (by decide) (Layout.not_colon_number _ _)
  rw [Text.dropEnd_eq_self (getLast?_reportLine_ne r), toList_reportLine, Binary64.toList_plain,
    Text.pieces_append_sep _ _ _ hname, Text.pieces_eq_singleton _ _ hfield]

theorem length_pieces_reportLine (h : ':' ∈ r.name.toList) :
    2 < (Text.pieces ':' (Text.dropEnd '\r' r.reportLine.toList)).length := by
  have hcount := List.count_pos_iff.2 h
  rw [Text.length_pieces, Text.dropEnd_eq_self (getLast?_reportLine_ne r), toList_reportLine,
    String.toList_append, List.count_append, List.count_append, List.count_cons_self]
  omega

/-- Around the number there is only the blank in front of it. -/
theorem readValue_reportLine (x : Binary64) :
    Observation.readValue (' ' :: Layout.plain.number x) =
      if x.isFinite then .ok x else .error .notFinite := by
  unfold Observation.readValue
  rw [Text.trim_cons_blank rfl,
    Text.trim_eq_self fun _ => Layout.not_blank_of_mem_number Layout.plain, Layout.read?_number]

/-- What the gate makes of a report, whatever the name and the average are. -/
theorem read_reportLine (r : Recorder) :
    Observation.read r.reportLine =
      if ':' ∈ r.name.toList then .error .separators
      else if '\t' ∈ r.name.toList then .error .tabInName
      else if r.average.isFinite then .ok r.observation
      else .error .notFinite := by
  unfold Observation.read
  by_cases hcolon : ':' ∈ r.name.toList
  · rw [if_pos hcolon]
    split
    · next name field heq =>
      have hlength := length_pieces_reportLine hcolon
      rw [heq] at hlength
      exact absurd hlength (Nat.lt_irrefl 2)
    · rfl
  · have hne : (mark ++ r.name).toList ≠ [] := by
      simp [mark]
    have htab : '\t' ∈ (mark ++ r.name).toList ↔ '\t' ∈ r.name.toList := by
      simp [mark]
    rw [if_neg hcolon, pieces_reportLine hcolon]
    dsimp only
    rw [if_neg hne, readValue_reportLine]
    simp only [htab, String.ofList_toList]
    split
    · rfl
    · split
      · rfl
      · rfl

theorem read_reportLine_eq_ok {o : Observation} :
    Observation.read r.reportLine = .ok o ↔ r.Readable ∧ o = r.observation := by
  rw [read_reportLine, Readable]
  by_cases hcolon : ':' ∈ r.name.toList
  · simp [hcolon]
  · by_cases htab : '\t' ∈ r.name.toList
    · simp [hcolon, htab]
    · by_cases hfinite : r.average.isFinite
      · simp [hcolon, htab, hfinite, eq_comm]
      · simp [hcolon, htab, hfinite]

theorem readLine_reportLine_eq_ok {number : Nat} {o : Observation} :
    Observation.readLine number r.reportLine = .ok o ↔ r.Readable ∧ o = r.observation := by
  rw [← read_reportLine_eq_ok, Observation.readLine]
  cases Observation.read r.reportLine with
  | ok o' => simp
  | error flaw => simp

theorem not_feed_reportLine (h : '\n' ∉ r.name.toList) : '\n' ∉ r.reportLine.toList := by
  have hnumber : '\n' ∉ Layout.plain.number r.average := fun hn => by
    cases Layout.not_blank_of_mem_number Layout.plain hn
  rw [toList_reportLine, Binary64.toList_plain]
  simp [mark, h, hnumber]

theorem streamLines_reports (h : ∀ r ∈ rs, '\n' ∉ r.name.toList) :
    Tally.streamLines (rs.flatMap fun r => Bytes.ofText r.report) =
      (rs.map reportLine).map Bytes.ofText := by
  have hlines : Tally.streamLines ((rs.map reportLine).flatMap fun s => Bytes.ofText (s ++ "\n")) =
      (rs.map reportLine).map Bytes.ofText :=
    Tally.streamLines_ofText
      (List.forall_mem_map.2 fun r hr => not_feed_reportLine (h r hr))
      (List.forall_mem_map.2 fun r _ => getLast?_reportLine_ne r)
  rwa [List.flatMap_map] at hlines

theorem mapM_ofBytes?_reportLines (h : ∀ r ∈ rs, r.Readable) :
    ((rs.map reportLine).map Bytes.ofText).mapM Observation.ofBytes? =
      some (rs.map observation) := by
  induction rs with
  | nil => rfl
  | cons r rest ih =>
    have hline : Observation.ofBytes? (.ofText r.reportLine) = some r.observation := by
      rw [Observation.ofBytes?, Bytes.toText?_ofText, Option.bind_some,
        read_reportLine_eq_ok.2 ⟨h r List.mem_cons_self, rfl⟩]
      rfl
    exact mapM_cons_eq_some.2
      ⟨_, _, hline, ih fun r' hr' => h r' (List.mem_cons_of_mem _ hr'), rfl⟩

/-- The reports of readable recorders without line breaks in their names, one behind the other, are
read as one observation for each of them, in order: its marked name with the average as it is. The
line of a single recorder reads exactly if the recorder is readable. -/
theorem reports_read_back :
    (∀ (rs : List Recorder) (t : Tally), (∀ r ∈ rs, r.Readable ∧ '\n' ∉ r.name.toList) →
      t.readStream (rs.flatMap fun r => Bytes.ofText r.report) =
        ((rs.map observation).foldl Tally.record t, .ok rs.length)) ∧
    ∀ (r : Recorder) (number : Nat),
      ((∃ o, Observation.readLine number r.reportLine = .ok o) ↔ r.Readable) ∧
      ∀ o, Observation.readLine number r.reportLine = .ok o → o = r.observation := by
  refine ⟨fun rs t h => ?_, fun r number => ⟨?_, fun o ho => ?_⟩⟩
  · have hobs := mapM_ofBytes?_reportLines fun r hr => (h r hr).1
    rw [Tally.readStream, streamLines_reports fun r hr => (h r hr).2,
      Tally.readLines_of_observations hobs, List.length_map, List.length_map, Nat.zero_add]
  · constructor
    · rintro ⟨o, ho⟩
      exact (readLine_reportLine_eq_ok.1 ho).1
    · exact fun hr => ⟨_, readLine_reportLine_eq_ok.2 ⟨hr, rfl⟩⟩
  · exact (readLine_reportLine_eq_ok.1 ho).2

/-- Names with blanks, a carriage return and letters beyond ASCII, and averages written without
an exponent. -/
theorem reports_read_back_odd_names :
    let rs := [((new " \r").put (.ofDecimal false ⟨1, 23⟩)).put (.ofDecimal false ⟨3, 23⟩),
      (new "größe→\r").put (.ofDecimal true ⟨5, -7⟩), new ""]
    rs.map reportLine = ["[PERF] \r: 200000000000000000000000", "[PERF]größe→\r: -0.0000005",
      "[PERF]: 0"] ∧
    Tally.readStream .empty (rs.flatMap fun r => Bytes.ofText r.report) =
      ((rs.map observation).foldl Tally.record .empty, .ok 3) := by
  intro rs
  have hreadable : ∀ r ∈ rs, r.Readable ∧ '\n' ∉ r.name.toList := by decide +kernel
  exact ⟨by decide +kernel, reports_read_back.1 rs .empty hreadable⟩

end Ratchet.Recorder
