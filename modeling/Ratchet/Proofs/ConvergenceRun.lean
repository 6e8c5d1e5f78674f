import Ratchet.Proofs.Decision
import Ratchet.Proofs.FileTree

/-!
# How a convergence run ends

`Measures` says that a run got as far as a verdict: its settings are in range and every line of the
stream is an observation. A run that does not get there ends silently with code 1
(`run_of_not_measures`); one that does ends by what the verdict says, and by whether the baseline
can be saved (`run_of_measures`).
-/

namespace Ratchet.Program

open CommandLine (Given)
open Tally (observations? ofObservations)

variable {given : Given} {t : FileTree} {output : String} {stdin : Bytes} {settings : Settings}
  {obs : List Observation}

/-- The settings are in range, and the stream reads as `obs`. -/
structure Measures (given : Given) (t : FileTree) (stdin : Bytes) (settings : Settings)
    (obs : List Observation) : Prop where
  settings : given.settings t = .ok settings
  stream : observations? stdin = some obs

theorem Measures.exists_iff (h : Measures given t stdin settings obs)
    {P : Settings → List Observation → Prop} :
    (∃ s o, Measures given t stdin s o ∧ P s o) ↔ P settings obs := by
  constructor
  · rintro ⟨s, o, ⟨hs, ho⟩, hp⟩
    cases hs.symm.trans h.settings
    cases ho.symm.trans h.stream
    exact hp
  · exact fun hp => ⟨settings, obs, h, hp⟩

theorem Measures.check_ok (h : Measures given t stdin settings obs) :
    settings.convergence.check = .ok () :=
  (Settings.check_eq_ok.1 (Given.check_of_settings h.settings)).1

section Run
variable {args : List String}
  (h : CommandLine.read .converge args = .ok (.converge output, given))
include h

theorem run_of_not_measures (hm : ¬ ∃ settings obs, Measures given t stdin settings obs) :
    (run .converge args stdin t).Silent .fatal t := by
  rw [run, h]
  dsimp only
  cases hs : given.settings t with
  | error fault => exact silent_of_isFatal (Given.isFatal_of_settings hs) _ _ _
  | ok settings =>
    cases ho : observations? stdin with
    | some obs => exact absurd ⟨settings, obs, hs, ho⟩ hm
    | none =>
      obtain ⟨fault, hfault, hfatal⟩ := Gate.measure_of_none ho settings.convergence
      dsimp only [carryOut, finish, Gate.converge]
      rw [hfault]
      exact silent_of_isFatal hfatal _ _ _

/-- A run with a verdict in hand writes nothing after a shortfall, refuses an empty baseline, and
is in order once the baseline is saved. -/
theorem run_of_measures (hm : Measures given t stdin settings obs) :
    let e := run .converge args stdin t
    match Convergence.judge settings.convergence .empty (ofObservations obs).entries with
    | .shortfall short =>
      e.code = 2 ∧ e.stdout = (Convergence.Verdict.shortfall short).render given.form ∧ e.tree = t
    | .converged b =>
      if b.isEmpty then e.Silent .emptyBaseline t
      else
        match b.save t output with
        | .error _ => e.Silent .fatal t
        | .ok t' =>
          e.code = 0 ∧ e.stdout = (Convergence.Verdict.converged b).render given.form ∧
            e.tree = t' := by
  have hverdict := Convergence.evaluate_eq_ok (ofObservations obs) hm.check_ok
  rw [run, h]
  dsimp only
  rw [hm.settings]
  dsimp only [carryOut, finish, Gate.converge]
  rw [Gate.measure_of_observations hm.stream, hverdict]
  dsimp only [Except.mapError]
  cases Convergence.judge settings.convergence .empty (ofObservations obs).entries with
  | shortfall short => exact ⟨rfl, rfl, rfl⟩
  | converged b =>
    dsimp only [Gate.write]
    by_cases hempty : b.isEmpty
    · rw [if_pos hempty, if_pos hempty]
      exact silent_of_emptyBaseline _ _ _ _
    · rw [if_neg hempty, if_neg hempty]
      cases hsave : b.save t output with
      | error fault => exact silent_of_isFatal (Baseline.isFatal_of_save hsave) _ _ _
      | ok t' => exact ⟨rfl, rfl, rfl⟩

end Run

/-- The code, the tree and the output of a convergence run agree. Code 0: there are observations,
every metric has converged, and the baseline with the mean and the standard deviation of each was
saved. Code 2: some metric has not converged, and the first of them is reported. Code 4: the stream
was empty. Everything else is code 1. -/
theorem converge_code_tree_stdout {args : List String} {command : CommandLine.Command}
    {given : Given} (h : CommandLine.read .converge args = .ok (command, given)) (stdin : Bytes)
    (t : FileTree) :
    ∃ output, command = .converge output ∧
      let e := run .converge args stdin t
      (e.code = 0 ↔ ∃ settings obs, Measures given t stdin settings obs ∧ obs ≠ [] ∧
        (∀ o ∈ obs, Converged settings.convergence (valuesOf o.name obs)) ∧
        ∃ b t', Summarizes b obs ∧ b.save t output = .ok t') ∧
      (e.code = 2 ↔ ∃ settings obs, Measures given t stdin settings obs ∧
        ∃ o ∈ obs, ¬ Converged settings.convergence (valuesOf o.name obs)) ∧
      (e.code = 4 ↔ (∃ settings, given.settings t = .ok settings) ∧ stdin = []) ∧
      (e.code = 0 ∨ e.code = 1 ∨ e.code = 2 ∨ e.code = 4) ∧
      (e.code = 0 → ∃ settings obs, Measures given t stdin settings obs ∧
        ∃ b, Convergence.evaluate (ofObservations obs) settings.convergence =
          .ok (.converged b) ∧
        e.stdout = (Convergence.Verdict.converged b).render given.form ∧ Summarizes b obs ∧
        ∃ text place, b.render = .ok text ∧ e.tree.read output = .ok (.ofText text) ∧
          t.locate output = .ok place ∧ ∀ q, q ≠ place → e.tree.get? q = t.get? q) ∧
      (e.code = 2 → ∃ settings obs, Measures given t stdin settings obs ∧
        ∃ short, Convergence.evaluate (ofObservations obs) settings.convergence =
          .ok (.shortfall short) ∧ FirstShortfall settings.convergence obs short ∧
        e.stdout = (Convergence.Verdict.shortfall short).render given.form) ∧
      (e.code ≠ 0 → e.tree = t) ∧
      (e.code = 1 ∨ e.code = 4 → e.stdout = "") := by
  obtain ⟨output, rfl⟩ := CommandLine.exists_converge_of_read h
  refine ⟨output, rfl, ?_⟩
  by_cases hm : ∃ settings obs, Measures given t stdin settings obs
  · obtain ⟨settings, obs, hm⟩ := hm
    have hrun := run_of_measures h hm
    have hverdict := Convergence.evaluate_eq_ok (ofObservations obs) hm.check_ok
    have hempty : (∃ settings, given.settings t = .ok settings) ∧ stdin = [] ↔ obs = [] := by
      rw [← Tally.observations?_eq_nil_iff, hm.stream, Option.some.injEq, and_iff_right]
      exact ⟨settings, hm.settings⟩
    have hsaved : (∃ b t', Summarizes b obs ∧ b.save t output = .ok t') ↔
        ∃ t', (ofObservations obs).baseline.save t output = .ok t' := by
      simp only [← eq_baseline_ofObservations_iff, exists_and_left, exists_eq_left]
    simp only [hm.exists_iff, hempty, hsaved]
    rcases evaluate_cases hm.check_ok obs with ⟨hall, heval⟩ | ⟨short, hshort, heval⟩
    · have hconverged : ∀ o ∈ obs, Converged settings.convergence (valuesOf o.name obs) :=
        fun o ho => hall o.name (valuesOf_ne_nil_iff.2 ⟨o, ho, rfl⟩)
      have hnone : ¬ ∃ o ∈ obs, ¬ Converged settings.convergence (valuesOf o.name obs) := by
        rintro ⟨o, ho, hnot⟩
        exact hnot (hconverged o ho)
      rw [Except.ok.inj (hverdict.symm.trans heval)] at hrun
      dsimp only at hrun
      split at hrun
      · next hbaseline =>
        obtain ⟨hcode, hout, htree⟩ := hrun
        have hobs := isEmpty_baseline_ofObservations_iff.1 hbaseline
        simp [hcode, hout, htree, hobs, ExitStatus.code]
      · next hbaseline =>
        have hobs : obs ≠ [] := fun e => hbaseline (isEmpty_baseline_ofObservations_iff.2 e)
        split at hrun
        · next hsave =>
          obtain ⟨hcode, hout, htree⟩ := hrun
          simp only [hcode, hout, htree, hobs, hsave, hnone, ExitStatus.code]
          simp
        · next t' hsave =>
          obtain ⟨hcode, hout, htree⟩ := hrun
          obtain ⟨text, htext, hreplace⟩ := Baseline.save_eq_ok.1 hsave
          obtain ⟨place, hlocate, hother⟩ := FileTree.get?_replace hreplace
          have hread := FileTree.read_replace hreplace
          rw [hcode, hout, htree]
          refine ⟨iff_of_true rfl ⟨hobs, hconverged, t', hsave⟩, iff_of_false (by decide) hnone,
            iff_of_false (by decide) hobs, .inl rfl, fun _ => ?_, fun h => absurd h (by decide),
            fun h => absurd rfl h, fun h => absurd h (by decide)⟩
          exact ⟨_, heval, rfl, eq_baseline_ofObservations_iff.1 rfl, text, place, htext, hread,
            hlocate, hother⟩
    · obtain ⟨o, ho, hname⟩ := valuesOf_ne_nil_iff.1 hshort.observed
      have hnot : ¬ Converged settings.convergence (valuesOf o.name obs) := hname ▸ hshort.falls
      have hobs : obs ≠ [] := List.ne_nil_of_mem ho
      rw [Except.ok.inj (hverdict.symm.trans heval)] at hrun
      obtain ⟨hcode, hout, htree⟩ := hrun
      rw [hcode, hout, htree]
      refine ⟨iff_of_false (by decide) fun hall => hnot (hall.2.1 o ho),
        iff_of_true rfl ⟨o, ho, hnot⟩, iff_of_false (by decide) hobs, .inr (.inr (.inl rfl)),
        fun h => absurd h (by decide), fun _ => ⟨short, heval, hshort, rfl⟩, fun _ => rfl,
        fun h => absurd h (by decide)⟩
  · obtain ⟨hcode, hout, htree⟩ := run_of_not_measures h hm
    have hnone : ∀ settings obs, ¬ Measures given t stdin settings obs := fun s o hso =>
      hm ⟨s, o, hso⟩
    have hempty : ¬ ((∃ settings, given.settings t = .ok settings) ∧ stdin = []) := by
      rintro ⟨⟨settings, hs⟩, rfl⟩
      exact hm ⟨settings, [], hs, rfl⟩
    simp [hcode, hout, htree, hnone, hempty, ExitStatus.code]

/-- Two measurements that lie one apart converge, to the middle between them. -/
theorem converge_two_measurements :
    let t := FileTree.bare ["w"]
    let e := run .converge ["out.tsv"] (.ofText "a:1\na:2\n") t
    e.code = 0 ∧ ∃ (b : Baseline) (text : String) (place : Place),
      b.get? "a" = some ⟨.ofDecimal false ⟨15, -1⟩, .ofDecimal false ⟨5, -1⟩⟩ ∧
      b.render = .ok text ∧ e.tree.read "out.tsv" = .ok (.ofText text) ∧
      t.locate "out.tsv" = .ok place ∧ ∀ q, q ≠ place → e.tree.get? q = t.get? q := by
  intro t e
  have hread : CommandLine.read .converge ["out.tsv"] = .ok
      (.converge "out.tsv", { Given.empty with operands := ["out.tsv"] }) := rfl
  have hcode : e.code = 0 := by decide +kernel
  have hstream : observations? (.ofText "a:1\na:2\n") =
      some [⟨"a", .ofNat 1⟩, ⟨"a", .ofNat 2⟩] := by
    decide +kernel
  obtain ⟨output, heq, hrun⟩ := converge_code_tree_stdout hread (.ofText "a:1\na:2\n") t
  cases heq
  obtain ⟨-, -, -, -, hsaved, -⟩ := hrun
  obtain ⟨_, obs, hm, b, -, -, hb, text, place, hwritten⟩ := hsaved hcode
  obtain rfl := Option.some.inj (hstream.symm.trans hm.stream)
  have hvalues : valuesOf "a" [⟨"a", .ofNat 1⟩, ⟨"a", .ofNat 2⟩] = [.ofNat 1, .ofNat 2] := by
    decide +kernel
  have hentry : Entry.mk (Moments.ofList [.ofNat 1, .ofNat 2]).mean
      (Moments.ofList [.ofNat 1, .ofNat 2]).stddev =
        ⟨.ofDecimal false ⟨15, -1⟩, .ofDecimal false ⟨5, -1⟩⟩ := by
    decide +kernel
  have ha := hb "a"
  rw [hvalues, if_neg (List.cons_ne_nil _ _), hentry] at ha
  exact ⟨hcode, b, text, place, ha, hwritten⟩

end Ratchet.Program
