import Ratchet.Tally
import Ratchet.Proofs.Fault
import Ratchet.Proofs.Lines
import Ratchet.Proofs.NameMap

/-!
# What a tally of a stream holds

`observations?` reads a stream as a whole: the observations of all its lines, or nothing. Reading
line by line records exactly those, and if some line is `Refused`, it records the lines in front of
the first such line and ends with its fault: `Reading` says what lines come to, and
`readLines_of_reading` that `readLines` does this. The tally of a list of observations holds, for
every metric, the fold of its values in the order of their arrival (`get?_ofObservations`).
-/

namespace Ratchet

/-- The observation of a line, if it is one. -/
def Observation.ofBytes? (line : Bytes) : Option Observation :=
  line.toText?.bind fun text => (read text).toOption

theorem Observation.readBytes_eq_ok {number : Nat} {line : Bytes} {o : Observation} :
    readBytes number line = .ok o ↔ ofBytes? line = some o := by
  unfold readBytes ofBytes? readLine
  cases line.toText? with
  | none => simp
  | some text =>
    simp only [Option.bind_some]
    cases read text <;> simp [Except.toOption]

/-- A line is no observation: its bytes are not text, or the text has a flaw. It ends the reading of
its stream with this fault. -/
inductive Observation.Refused (number : Nat) (line : Bytes) : Fault → Prop where
  | notText : line.toText? = none → Refused number line (.io .invalidData)
  | flawed {text : String} {flaw : Flaw} : line.toText? = some text → read text = .error flaw →
      Refused number line (.measurement number text flaw.reason)

theorem Observation.readBytes_eq_error {number : Nat} {line : Bytes} {fault : Fault} :
    readBytes number line = .error fault ↔ Refused number line fault := by
  unfold readBytes readLine
  constructor
  · intro h
    split at h
    · next text htext =>
      split at h
      · cases h
      · next flaw hflaw =>
        cases h
        exact .flawed htext hflaw
    · next htext =>
      cases h
      exact .notText htext
  · rintro (htext | ⟨htext, hflaw⟩)
    · rw [htext]
    · rw [htext]
      dsimp only
      rw [hflaw]

theorem Observation.Refused.isFatal {number : Nat} {line : Bytes} {fault : Fault}
    (h : Refused number line fault) : fault.IsFatal := by
  cases h <;> simp [Fault.IsFatal]

theorem Observation.Refused.ofBytes?_eq_none {number : Nat} {line : Bytes} {fault : Fault}
    (h : Refused number line fault) : ofBytes? line = none := by
  refine Option.eq_none_iff_forall_ne_some.2 fun o ho => ?_
  cases (readBytes_eq_ok.2 ho).symm.trans (readBytes_eq_error.2 h)

def valuesOf (name : String) (obs : List Observation) : List Binary64 :=
  (obs.filter (·.name = name)).map (·.value)

theorem valuesOf_cons (name : String) (o : Observation) (obs : List Observation) :
    valuesOf name (o :: obs) =
      if o.name = name then o.value :: valuesOf name obs else valuesOf name obs := by
  unfold valuesOf
  by_cases h : o.name = name <;> simp [h]

theorem valuesOf_ne_nil_iff {name : String} {obs : List Observation} :
    valuesOf name obs ≠ [] ↔ ∃ o ∈ obs, o.name = name := by
  simp [valuesOf, List.filter_eq_nil_iff]

/-- The samples that come of values folded in one after the other. -/
def Samples.ofValues (xs : List Binary64) : Samples := xs.foldl push .empty

namespace Tally

/-- The observations of a stream, if every line is one. -/
def observations? (stream : Bytes) : Option (List Observation) :=
  (streamLines stream).mapM Observation.ofBytes?

def ofObservations (obs : List Observation) : Tally := obs.foldl record .empty

theorem readLines_append {front : List Bytes} {obs : List Observation}
    (h : front.mapM Observation.ofBytes? = some obs) (t : Tally) (before : Nat)
    (rest : List Bytes) :
    t.readLines before (front ++ rest) =
      (obs.foldl record t).readLines (before + front.length) rest := by
  induction front generalizing t before obs with
  | nil => cases h; rfl
  | cons line front ih =>
    obtain ⟨o, later, ho, hlater, rfl⟩ := mapM_cons_eq_some.1 h
    rw [List.cons_append, readLines, Observation.readBytes_eq_ok.2 ho]
    dsimp only
    rw [ih hlater, List.length_cons, List.foldl_cons, Nat.add_assoc, Nat.add_comm 1]

/-- What lines come to, `before` others in front of them: all are observations, or the first that is
none has its fault. -/
inductive Reading (before : Nat) : List Bytes → List Observation → Except Fault Nat → Prop where
  | complete {lines : List Bytes} {obs : List Observation} :
      lines.mapM Observation.ofBytes? = some obs →
      Reading before lines obs (.ok (before + lines.length))
  | stopped {front back : List Bytes} {line : Bytes} {obs : List Observation} {fault : Fault} :
      front.mapM Observation.ofBytes? = some obs →
      Observation.Refused (before + front.length + 1) line fault →
      Reading before (front ++ line :: back) obs (.error fault)

theorem Reading.cons {before : Nat} {lines : List Bytes} {obs : List Observation}
    {outcome : Except Fault Nat} {line : Bytes} {o : Observation}
    (ho : Observation.ofBytes? line = some o) (h : Reading (before + 1) lines obs outcome) :
    Reading before (line :: lines) (o :: obs) outcome := by
  have hcons {front : List Bytes} {obs : List Observation}
      (h : front.mapM Observation.ofBytes? = some obs) :
      (line :: front).mapM Observation.ofBytes? = some (o :: obs) :=
    mapM_cons_eq_some.2 ⟨o, obs, ho, h, rfl⟩
  have hlength (front : List Bytes) :
      before + 1 + front.length = before + (line :: front).length := by
    rw [List.length_cons]
    omega
  cases h with
  | complete hobs =>
    rw [hlength]
    exact .complete (hcons hobs)
  | stopped hobs hrefused =>
    rw [hlength] at hrefused
    exact .stopped (hcons hobs) hrefused

theorem exists_reading (lines : List Bytes) (before : Nat) :
    ∃ obs outcome, Reading before lines obs outcome := by
  induction lines generalizing before with
  | nil => exact ⟨[], _, .complete rfl⟩
  | cons line rest ih =>
    cases hread : Observation.readBytes (before + 1) line with
    | error fault =>
      have hstopped : Reading before ([] ++ line :: rest) [] (.error fault) :=
        .stopped rfl (Observation.readBytes_eq_error.1 hread)
      exact ⟨[], _, hstopped⟩
    | ok o =>
      obtain ⟨obs, outcome, h⟩ := ih (before + 1)
      exact ⟨o :: obs, outcome, h.cons (Observation.readBytes_eq_ok.1 hread)⟩

theorem readLines_of_reading {before : Nat} {lines : List Bytes} {obs : List Observation}
    {outcome : Except Fault Nat} (h : Reading before lines obs outcome) (t : Tally) :
    t.readLines before lines = (obs.foldl record t, outcome) := by
  cases h with
  | complete hobs =>
    have happend := readLines_append hobs t before []
    rw [List.append_nil] at happend
    exact happend
  | stopped hobs hrefused =>
    rw [readLines_append hobs, readLines, Observation.readBytes_eq_error.2 hrefused]

theorem readLines_of_observations {lines : List Bytes} {obs : List Observation}
    (h : lines.mapM Observation.ofBytes? = some obs) (t : Tally) (before : Nat) :
    t.readLines before lines = (obs.foldl record t, .ok (before + lines.length)) :=
  readLines_of_reading (.complete h) t

theorem readLines_of_none {lines : List Bytes} (h : lines.mapM Observation.ofBytes? = none)
    (t : Tally) (before : Nat) :
    ∃ fault, (t.readLines before lines).2 = .error fault ∧ fault.IsFatal := by
  obtain ⟨obs, outcome, hreading⟩ := exists_reading lines before
  rw [readLines_of_reading hreading]
  cases hreading with
  | complete hobs => cases h.symm.trans hobs
  | stopped hobs hrefused => exact ⟨_, rfl, hrefused.isFatal⟩

/-- Recording observations one after the other folds the values of each metric into its samples. -/
theorem get?_foldl_record (obs : List Observation) (t : Tally) (name : String) :
    (obs.foldl record t).get? name =
      if valuesOf name obs = [] then t.get? name
      else some ((valuesOf name obs).foldl Samples.push ((t.get? name).getD .empty)) := by
  induction obs generalizing t with
  | nil => rfl
  | cons o rest ih =>
    rw [List.foldl_cons, ih, record, observe, NameMap.get?_update, valuesOf_cons]
    by_cases hname : o.name = name
    · subst hname
      by_cases hrest : valuesOf o.name rest = [] <;> simp [hrest]
    · simp only [if_neg hname]

theorem get?_ofObservations (obs : List Observation) (name : String) :
    (ofObservations obs).get? name =
      if valuesOf name obs = [] then none else some (.ofValues (valuesOf name obs)) :=
  get?_foldl_record obs .empty name

theorem mem_entries_ofObservations_iff {obs : List Observation} {name : String} {s : Samples} :
    (name, s) ∈ (ofObservations obs).entries ↔
      (∃ o ∈ obs, o.name = name) ∧ s = .ofValues (valuesOf name obs) := by
  rw [← NameMap.get?_eq_some_iff, get?_ofObservations, ← valuesOf_ne_nil_iff]
  split
  · next h => simp [h]
  · next h => simp [h, eq_comm]

/-- Only a stream without a single byte has no lines, and so no observations. -/
theorem observations?_eq_nil_iff {stream : Bytes} :
    observations? stream = some [] ↔ stream = [] := by
  unfold observations?
  constructor
  · intro h
    cases hlines : streamLines stream with
    | nil => exact Text.lines_eq_nil_iff.1 hlines
    | cons line rest =>
      rw [hlines] at h
      obtain ⟨_, _, -, -, hcons⟩ := mapM_cons_eq_some.1 h
      cases hcons
  · rintro rfl
    rfl

end Tally

theorem mem_names_ofObservations_iff {obs : List Observation} {name : String} :
    name ∈ (Tally.ofObservations obs).names ↔ valuesOf name obs ≠ [] := by
  rw [← NameMap.isSome_get?_iff, Tally.get?_ofObservations]
  split <;> simp_all

end Ratchet
