import Ratchet.Program
import Ratchet.Proofs.Stages

/-!
# Which faults are fatal

A fault is fatal unless it is the refusal to write an empty baseline. No stage that reads or writes
refuses a baseline for being empty: that is left to `Gate.write`, which the gates come to last. A
fatal fault ends a program with code 1, nothing printed and the tree as it was.
-/

namespace Ratchet

/-- A fault with the status of any failure. -/
def Fault.IsFatal (f : Fault) : Prop := ∀ path, f ≠ .emptyBaseline path

variable {t : FileTree} {path : String} {f : Fault}

theorem SettingsFlaw.isFatal_fault (s : SettingsFlaw) : s.fault.IsFatal := by
  intro path h
  cases h

theorem Settings.isFatal_of_load (h : load t path = .error f) : f.IsFatal := by
  unfold load at h
  split at h
  · cases h; simp [Fault.IsFatal]
  · cases h; simp [Fault.IsFatal]
  · obtain ⟨flaw, -, rfl⟩ := mapError_eq_error.1 h
    exact flaw.isFatal_fault

theorem CommandLine.Given.isFatal_of_settings {g : Given} (h : g.settings t = .error f) :
    f.IsFatal := by
  rcases bind_eq_error.1 h with h | ⟨s, -, h⟩
  · cases hc : g.config with
    | none => rw [hc] at h; cases h
    | some path => rw [hc] at h; exact Settings.isFatal_of_load h
  · rcases bind_eq_error.1 h with h | ⟨_, -, h⟩
    · obtain ⟨flaw, -, rfl⟩ := mapError_eq_error.1 h
      exact flaw.isFatal_fault
    · cases h

namespace Baseline

theorem isFatal_of_load (h : (load t path).outcome = .error f) : f.IsFatal := by
  unfold load at h
  split at h
  · cases h; simp [Fault.IsFatal]
  · cases h; simp [Fault.IsFatal]
  · dsimp only at h
    split at h
    · cases h
    · cases h; simp [Fault.IsFatal]

theorem isFatal_of_renderEntries {entries : List (String × Entry)}
    (h : renderEntries entries = .error f) : f.IsFatal := by
  induction entries with
  | nil => cases h
  | cons e rest ih =>
    rw [renderEntries] at h
    split at h
    · exact ih (map_eq_error.1 h)
    · cases h; simp [Fault.IsFatal]

theorem isFatal_of_save {b : Baseline} (h : b.save t path = .error f) : f.IsFatal := by
  rcases bind_eq_error.1 h with h | ⟨_, -, h⟩
  · exact isFatal_of_renderEntries h
  · obtain ⟨kind, -, rfl⟩ := mapError_eq_error.1 h
    simp [Fault.IsFatal]

theorem save_eq_ok {b : Baseline} {t' : FileTree} :
    b.save t path = .ok t' ↔
      ∃ text, b.render = .ok text ∧ t.replace path (.ofText text) = .ok t' := by
  simp only [save, bind_eq_ok, mapError_eq_ok]

end Baseline

namespace Program

/-- An ending that says nothing and leaves everything alone. -/
structure Ending.Silent (e : Ending) (status : ExitStatus) (t : FileTree) : Prop where
  code : e.code = status.code
  stdout : e.stdout = ""
  tree : e.tree = t

theorem silent_of_isFatal (h : f.IsFatal) (contexts : List String) (notices : List Notice)
    (t : FileTree) : (failed ⟨contexts, .fault f⟩ notices t).Silent .fatal t := by
  refine ⟨congrArg ExitStatus.code ?_, rfl, rfl⟩
  unfold Failure.status
  split
  · next path hf => cases hf; exact absurd rfl (h path)
  · rfl

theorem silent_of_emptyBaseline (path : String) (contexts : List String) (notices : List Notice)
    (t : FileTree) :
    (failed ⟨contexts, .fault (.emptyBaseline path)⟩ notices t).Silent .emptyBaseline t :=
  ⟨rfl, rfl, rfl⟩

end Program

end Ratchet
