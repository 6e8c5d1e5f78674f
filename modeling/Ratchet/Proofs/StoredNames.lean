import Ratchet.Proofs.Bytes
import Ratchet.Proofs.GateStep
import Ratchet.Proofs.Recording

/-!
# Names that come in can be written

A name gets into a store by a measurement line or by a line of a baseline file. Both are cut out
between line feeds; a measurement line with a tab in its name is refused, and a tab in a baseline
line ends the name. So neither way lets a name in that no baseline line could hold
(`Tally.mem_or_isWritable_of_readStream`, `Baseline.isWritable_of_read`). Judging and checking bring
no names of their own (`Convergence.mem_names_of_converged`, `Regression.mem_names_of_check`).

Rendering a baseline is the one stage that blames a name, and what reaches it can be written: no run
of either gate ends that way (`Gate.names_stay_writable`).
-/

namespace Ratchet

/-- The fault is that a name cannot be written. -/
def Fault.BlamesName (f : Fault) : Prop := ∃ name, f = .unwritableName name

namespace Observation

variable {o : Observation}

theorem isWritable_of_read {line : String} (h : read line = .ok o) (hl : '\n' ∉ line.toList) :
    Baseline.isWritable o.name = true := by
  unfold read at h
  split at h
  · next name field hpieces =>
    have hname : name ∈ Text.pieces ':' (Text.dropEnd '\r' line.toList) :=
      hpieces ▸ List.mem_cons_self
    split at h
    · cases h
    · split at h
      · cases h
      · next htab =>
        obtain ⟨x, -, rfl⟩ := map_eq_ok.1 h
        rw [Baseline.isWritable_iff, String.toList_ofList]
        refine ⟨htab, fun hfeed => hl ?_⟩
        exact Text.mem_of_mem_dropEnd (Text.mem_of_mem_pieces hname hfeed)
  · cases h

/-- A line feed of the text would be one of the line. -/
theorem isWritable_of_ofBytes? {line : Bytes} (h : ofBytes? line = some o) (hl : 10 ∉ line) :
    Baseline.isWritable o.name = true := by
  obtain ⟨text, htext, hread⟩ := Option.bind_eq_some_iff.1 h
  refine isWritable_of_read (toOption_eq_some.1 hread) fun hfeed => hl ?_
  rw [← Bytes.ofText_of_toText? htext]
  exact Bytes.mem_ofText (by decide) hfeed

theorem Refused.not_blamesName {number : Nat} {line : Bytes} {fault : Fault}
    (h : Refused number line fault) : ¬ fault.BlamesName := by
  rintro ⟨name, rfl⟩
  cases h

end Observation

theorem Recording.exists_of_mem_leading {lines : List Bytes} {o : Observation}
    (h : o ∈ leading lines) : ∃ line ∈ lines, Observation.ofBytes? line = some o := by
  induction lines with
  | nil => cases h
  | cons line rest ih =>
    unfold leading at h
    split at h
    · next first hfirst =>
      rcases List.mem_cons.1 h with rfl | h
      · exact ⟨line, List.mem_cons_self, hfirst⟩
      · obtain ⟨line', hline', ho⟩ := ih h
        exact ⟨line', List.mem_cons_of_mem _ hline', ho⟩
    · cases h

namespace Tally

theorem mem_names_foldl_record {obs : List Observation} {t : Tally} {name : String} :
    name ∈ (obs.foldl record t).names ↔ name ∈ t.names ∨ ∃ o ∈ obs, o.name = name := by
  rw [← NameMap.isSome_get?_iff, get?_foldl_record, ← valuesOf_ne_nil_iff,
    ← NameMap.isSome_get?_iff]
  split
  · next h => simp [h]
  · next h => simp [h]

/-- A stream brings in names that can be written, also when its reading fails half-way. -/
theorem mem_or_isWritable_of_readStream {t : Tally} {stream : Bytes} {name : String}
    (h : name ∈ (t.readStream stream).1.names) :
    name ∈ t.names ∨ Baseline.isWritable name = true := by
  unfold readStream at h
  rw [Recording.readLines_fst, mem_names_foldl_record] at h
  refine h.imp_right ?_
  rintro ⟨o, ho, rfl⟩
  obtain ⟨line, hline, hread⟩ := Recording.exists_of_mem_leading ho
  exact Observation.isWritable_of_ofBytes? hread (Text.not_mem_of_mem_lines hline)

theorem not_blamesName_of_readStream {t : Tally} {stream : Bytes} {fault : Fault}
    (h : (t.readStream stream).2 = .error fault) : ¬ fault.BlamesName := by
  unfold readStream at h
  generalize streamLines stream = lines at h
  obtain ⟨obs, outcome, hreading⟩ := exists_reading lines 0
  rw [readLines_of_reading hreading] at h
  cases hreading with
  | complete => cases h
  | stopped _ hrefused =>
    cases h
    exact hrefused.not_blamesName

end Tally

theorem SettingsFlaw.not_blamesName (flaw : SettingsFlaw) : ¬ flaw.fault.BlamesName := by
  rintro ⟨name, h⟩
  cases h

theorem Convergence.mem_names_of_converged {t : Tally} {settings : ConvergenceSettings}
    {b : Baseline} (h : evaluate t settings = .ok (.converged b)) {name : String}
    (hname : name ∈ b.names) : name ∈ t.names := by
  obtain ⟨_, hcheck, -⟩ := bind_eq_ok.1 h
  rw [evaluate_eq_ok t hcheck] at h
  rcases judge_cases settings t with ⟨-, hjudge⟩ | ⟨_, _, _, _, -, -, -, hjudge⟩
  · rw [hjudge] at h
    cases h
    rw [← NameMap.isSome_get?_iff, Tally.get?_baseline] at hname
    rw [← NameMap.isSome_get?_iff]
    simpa using hname
  · rw [hjudge] at h
    cases h

theorem Regression.Walked.mem_names {settings : RegressionSettings} {reference final : Baseline}
    {fresh : Baseline} {checks : List Check} {skipped : Nat}
    (w : Walked settings reference fresh.entries checks skipped final) {c : Check}
    (hc : c ∈ checks) : c.name ∈ fresh.names := by
  obtain ⟨rest, hentries, -⟩ := w.covers
  have hmem : c.metric ∈ fresh.entries :=
    hentries ▸ List.mem_append_left _ (List.mem_map_of_mem hc)
  exact List.mem_map_of_mem hmem

theorem Regression.mem_names_of_check {known fresh : Baseline} {settings : RegressionSettings}
    {report : Report} (h : check known fresh settings = .ok report) {name : String}
    (hname : name ∈ report.baseline.names) : name ∈ known.names ∨ name ∈ fresh.names := by
  have w := walked_of_check h
  rw [← NameMap.isSome_get?_iff, w.isSome_get?_iff, NameMap.isSome_get?_iff] at hname
  refine hname.imp_right ?_
  rintro ⟨c, hc, rfl⟩
  exact w.mem_names hc

/-! ## Baseline files -/

namespace Baseline

variable {b : Baseline} {t : FileTree} {path : String} {fault : Fault}

theorem isWritable_of_read {content : String} (h : (read content).outcome = .ok b) :
    ∀ name ∈ b.names, isWritable name = true :=
  exists_render_iff.1 (exists_render_of_read h)

theorem isWritable_of_load (h : (load t path).outcome = .ok b) :
    ∀ name ∈ b.names, isWritable name = true := by
  obtain ⟨content, -, hread⟩ := outcome_load_eq_ok.1 h
  exact isWritable_of_read hread

theorem not_blamesName_of_load (h : (load t path).outcome = .error fault) :
    ¬ fault.BlamesName := by
  rintro ⟨name, rfl⟩
  unfold load at h
  split at h
  · cases h
  · cases h
  · dsimp only at h
    split at h <;> cases h

/-- Saving blames a name only if the baseline holds one that cannot be written. -/
theorem not_blamesName_of_save (hnames : ∀ name ∈ b.names, isWritable name = true)
    (h : b.save t path = .error fault) : ¬ fault.BlamesName := by
  obtain ⟨text, htext⟩ := exists_render_iff.2 hnames
  rw [save_of_render htext] at h
  obtain ⟨kind, -, rfl⟩ := mapError_eq_error.1 h
  rintro ⟨name, h⟩
  cases h

end Baseline

/-! ## Runs -/

namespace Gate

theorem isWritable_of_measure {stream : Bytes} {settings : ConvergenceSettings} {b : Baseline}
    (h : measure stream settings = .ok (.converged b)) :
    ∀ name ∈ b.names, Baseline.isWritable name = true := by
  intro name hname
  unfold measure at h
  dsimp only at h
  split at h
  · cases h
  · have hmem := Convergence.mem_names_of_converged (mapError_eq_ok.1 h) hname
    rcases Tally.mem_or_isWritable_of_readStream hmem with hnone | hwritable
    · cases hnone
    · exact hwritable

theorem not_blamesName_of_measure {stream : Bytes} {settings : ConvergenceSettings}
    {fault : Fault} (h : measure stream settings = .error fault) : ¬ fault.BlamesName := by
  unfold measure at h
  dsimp only at h
  split at h
  · next hread =>
    cases h
    exact Tally.not_blamesName_of_readStream hread
  · obtain ⟨flaw, -, rfl⟩ := mapError_eq_error.1 h
    exact flaw.not_blamesName

theorem not_blamesName_of_write {α : Type} {v : α} {b : Baseline} {notices : List Notice}
    {t : FileTree} {path : String} {fault : Fault}
    (hnames : ∀ name ∈ b.names, Baseline.isWritable name = true)
    (h : (write v b notices t path).outcome = .error fault) : ¬ fault.BlamesName := by
  unfold write at h
  split at h
  · cases h
    rintro ⟨name, h⟩
    cases h
  · split at h
    · next hsave =>
      cases h
      exact Baseline.not_blamesName_of_save hnames hsave
    · cases h

theorem not_blamesName_of_converge {t : FileTree} {stream : Bytes} {output : String}
    {settings : ConvergenceSettings} {fault : Fault}
    (h : (converge t stream output settings).outcome = .error fault) : ¬ fault.BlamesName := by
  unfold converge at h
  split at h
  · next hmeasure =>
    cases h
    exact not_blamesName_of_measure hmeasure
  · next b hmeasure => exact not_blamesName_of_write (isWritable_of_measure hmeasure) h
  · cases h

theorem Checked.isWritable {t : FileTree} {reference checked : String}
    {settings : RegressionSettings} {known fresh : Baseline} {report : Regression.Report}
    (h : Checked t reference checked settings known fresh report) :
    ∀ name ∈ report.baseline.names, Baseline.isWritable name = true := by
  intro name hname
  rcases Regression.mem_names_of_check h.checks hname with hknown | hfresh
  · exact Baseline.isWritable_of_load h.loadsKnown name hknown
  · exact Baseline.isWritable_of_load h.loadsFresh name hfresh

theorem not_blamesName_of_accept {t : FileTree} {reference checked : String}
    {settings : RegressionSettings} {fault : Fault}
    (h : (accept t reference checked settings).outcome = .error fault) : ¬ fault.BlamesName := by
  unfold accept at h
  dsimp only at h
  split at h
  · next hknown =>
    cases h
    exact Baseline.not_blamesName_of_load hknown
  · next known hknown =>
    split at h
    · next hfresh =>
      cases h
      exact Baseline.not_blamesName_of_load hfresh
    · next fresh hfresh =>
      split at h
      · next flaw hcheck =>
        cases h
        exact flaw.not_blamesName
      · next report hcheck =>
        split at h
        · cases h
        · exact not_blamesName_of_write (Checked.isWritable ⟨hknown, hfresh, hcheck⟩) h

/-- A baseline has a text if all of its names can be written, and all names that get anywhere can be:
those that a stream brings into a tally, up to the line where its reading may end; those of a
baseline text; and those that a check of one baseline against another leaves. So neither gate ever
fails for a name that cannot be written, whatever the tree, the input and the settings. -/
theorem names_stay_writable :
    (∀ b : Baseline, (∃ text, b.render = .ok text) ↔
      ∀ name ∈ b.names, Baseline.isWritable name = true) ∧
    (∀ (t : Tally) (stream : Bytes), ∀ name ∈ (t.readStream stream).1.names,
      name ∈ t.names ∨ Baseline.isWritable name = true) ∧
    (∀ (content : String) (b : Baseline), (Baseline.read content).outcome = .ok b →
      ∀ name ∈ b.names, Baseline.isWritable name = true) ∧
    (∀ (known fresh : Baseline) (settings : RegressionSettings) (report : Regression.Report),
      Regression.check known fresh settings = .ok report →
        ∀ name ∈ report.baseline.names, name ∈ known.names ∨ name ∈ fresh.names) ∧
    (∀ (t : FileTree) (stream : Bytes) (output : String) (settings : ConvergenceSettings)
      (name : String),
      (converge t stream output settings).outcome ≠ .error (.unwritableName name)) ∧
    ∀ (t : FileTree) (reference checked : String) (settings : RegressionSettings)
      (name : String),
      (accept t reference checked settings).outcome ≠ .error (.unwritableName name) :=
  ⟨fun _ => Baseline.exists_render_iff,
    fun _ _ _ => Tally.mem_or_isWritable_of_readStream,
    fun _ _ => Baseline.isWritable_of_read,
    fun _ _ _ _ hcheck _ => Regression.mem_names_of_check hcheck,
    fun _ _ _ _ name h => not_blamesName_of_converge h ⟨name, rfl⟩,
    fun _ _ _ _ name h => not_blamesName_of_accept h ⟨name, rfl⟩⟩

/-- Names with a carriage return, a blank in front and a colon; the last line of the stream is
refused for its tab, and the last line of the text has no end. -/
theorem odd_names_stay_writable :
    let tally := (Tally.readStream .empty (.ofText "a\rb: 1\n é:2\nx\ty:3\n")).1
    let read := (Baseline.read "p\rq\t1\t2\n:\t3\tinf").outcome
    tally.names = [" é", "a\rb"] ∧ (∀ name ∈ tally.names, Baseline.isWritable name = true) ∧
      ∃ b report, read = .ok b ∧ Regression.check .empty b .default = .ok report ∧
        report.baseline.names = [":", "p\rq"] ∧ ∃ text, report.baseline.render = .ok text := by
  intro tally read
  obtain ⟨hrender, htally, htext, hcheck, -, -⟩ := names_stay_writable
  have hnames : tally.names = [" é", "a\rb"] := by decide +kernel
  have hrun : (read.toOption.bind fun b => (Regression.check .empty b .default).toOption.map
      fun r => r.baseline.names) = some [":", "p\rq"] := by decide +kernel
  obtain ⟨b, hread, hreport⟩ := Option.bind_eq_some_iff.1 hrun
  obtain ⟨report, hreport, hleft⟩ := Option.map_eq_some_iff.1 hreport
  have hb := toOption_eq_some.1 hread
  refine ⟨hnames, fun name hname => ?_, b, report, hb, toOption_eq_some.1 hreport, hleft,
    (hrender _).2 fun name hname => ?_⟩
  · rcases htally _ _ name hname with hnone | hwritable
    · cases hnone
    · exact hwritable
  · rcases hcheck _ _ _ _ (toOption_eq_some.1 hreport) name hname with hnone | hfresh
    · cases hnone
    · exact htext _ _ hb name hfresh

end Gate

end Ratchet
