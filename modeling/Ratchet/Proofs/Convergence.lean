import Ratchet.Gate
import Ratchet.Proofs.CommandLine
import Ratchet.Proofs.Tally

/-!
# What the convergence gate decides

`Samples.meets` is the condition on one metric. Either every metric of a tally meets it, and the
verdict is a baseline with the statistics of every metric; or the verdict names the first metric, in
name order, that does not (`judge_cases`).
-/

namespace Ratchet

/-- Enough of the samples lie inside the band. -/
def Samples.meets (settings : ConvergenceSettings) (s : Samples) : Bool :=
  meetsAcceptance (s.retained settings.sigma) s.moments.count settings.acceptance

/-- The statistics of every metric of a tally. -/
def Tally.baseline (t : Tally) : Baseline :=
  t.entries.foldl (fun b e => b.insert e.1 e.2.entry) .empty

theorem Tally.get?_baseline (t : Tally) (name : String) :
    t.baseline.get? name = (t.get? name).map Samples.entry := by
  have hascending : (t.entries.map fun e => (e.1, e.2.entry)).Pairwise fun a b => a.1 < b.1 :=
    List.pairwise_map.2 t.ascending
  have hfind : ∀ entries : List (String × Samples),
      NameMap.find? name (entries.map fun e => (e.1, e.2.entry)) =
        (NameMap.find? name entries).map Samples.entry := fun entries => by
    induction entries with
    | nil => rfl
    | cons e rest ih =>
      rw [List.map_cons, NameMap.find?, NameMap.find?, ih]
      split <;> rfl
  have hfold := NameMap.get?_foldl_insert hascending .empty name
  rw [List.foldl_map, hfind, NameMap.get?_empty, Option.or_none] at hfold
  exact hfold

namespace Convergence

variable {settings : ConvergenceSettings} {entries : List (String × Samples)}

theorem shortfall?_of_meets {s : Samples} (h : s.meets settings) (name : String) :
    shortfall? settings name s = none :=
  if_pos h

theorem shortfall?_of_not_meets {s : Samples} (h : s.meets settings = false) (name : String) :
    shortfall? settings name s = some ⟨name, s.retained settings.sigma, s.moments.count⟩ :=
  if_neg (Bool.eq_false_iff.1 h)

theorem judge_of_meets (h : ∀ e ∈ entries, e.2.meets settings) (b : Baseline) :
    judge settings b entries =
      .converged (entries.foldl (fun b e => b.insert e.1 e.2.entry) b) := by
  induction entries generalizing b with
  | nil => rfl
  | cons e rest ih =>
    rw [judge, shortfall?_of_meets (h e List.mem_cons_self)]
    exact ih (fun e' he' => h e' (List.mem_cons_of_mem _ he')) _

theorem judge_of_first {before after : List (String × Samples)} {name : String} {s : Samples}
    (hbefore : ∀ e ∈ before, e.2.meets settings) (h : s.meets settings = false) (b : Baseline) :
    judge settings b (before ++ (name, s) :: after) =
      .shortfall ⟨name, s.retained settings.sigma, s.moments.count⟩ := by
  induction before generalizing b with
  | nil => rw [List.nil_append, judge, shortfall?_of_not_meets h]
  | cons e rest ih =>
    rw [List.cons_append, judge, shortfall?_of_meets (hbefore e List.mem_cons_self)]
    exact ih (fun e' he' => hbefore e' (List.mem_cons_of_mem _ he')) _

theorem judge_cases (settings : ConvergenceSettings) (t : Tally) :
    (∀ e ∈ t.entries, e.2.meets settings) ∧
        judge settings .empty t.entries = .converged t.baseline ∨
      ∃ before name s after, t.entries = before ++ (name, s) :: after ∧
        (∀ e ∈ before, e.2.meets settings) ∧ s.meets settings = false ∧
        judge settings .empty t.entries =
          .shortfall ⟨name, s.retained settings.sigma, s.moments.count⟩ := by
  cases hfind : t.entries.find? (!·.2.meets settings) with
  | none =>
    have hall : ∀ e ∈ t.entries, e.2.meets settings := by
      simpa using List.find?_eq_none.1 hfind
    exact .inl ⟨hall, judge_of_meets hall .empty⟩
  | some e =>
    obtain ⟨hshort, before, after, hentries, hbefore⟩ := List.find?_eq_some_iff_append.1 hfind
    obtain ⟨name, s⟩ := e
    have hmeets : ∀ e ∈ before, e.2.meets settings := by simpa using hbefore
    have hs : s.meets settings = false := by simpa using hshort
    exact .inr ⟨before, name, s, after, hentries, hmeets, hs,
      hentries ▸ judge_of_first hmeets hs .empty⟩

theorem evaluate_eq_ok (t : Tally) (h : settings.check = .ok ()) :
    evaluate t settings = .ok (judge settings .empty t.entries) := by
  rw [evaluate, h]
  rfl

end Convergence

namespace Convergence.Verdict

variable {ε : Type} {outcome : Except ε Verdict}

/-- The entry of a metric in a converged baseline. -/
def entryAt (name : String) : Verdict → Option Entry
  | converged b => b.get? name
  | shortfall _ => none

def shortfall? : Verdict → Option Shortfall
  | converged _ => none
  | shortfall s => some s

theorem exists_of_entryAt_eq_some {name : String} {e : Entry}
    (h : outcome.toOption.bind (entryAt name) = some e) :
    ∃ b, outcome = .ok (.converged b) ∧ b.get? name = some e := by
  obtain ⟨verdict, hverdict, he⟩ := Option.bind_eq_some_iff.1 h
  cases verdict with
  | converged b => exact ⟨b, toOption_eq_some.1 hverdict, he⟩
  | shortfall => cases he

theorem eq_of_shortfall?_eq_some {s : Shortfall}
    (h : outcome.toOption.bind shortfall? = some s) : outcome = .ok (.shortfall s) := by
  obtain ⟨verdict, hverdict, hs⟩ := Option.bind_eq_some_iff.1 h
  cases verdict with
  | converged => cases hs
  | shortfall s' =>
    cases hs
    exact toOption_eq_some.1 hverdict

end Convergence.Verdict

open Tally (observations? ofObservations)

variable {settings : ConvergenceSettings} {stream : Bytes}

theorem meets_ofObservations_iff {obs : List Observation} :
    (∀ e ∈ (ofObservations obs).entries, e.2.meets settings) ↔
      ∀ o ∈ obs, (Samples.ofValues (valuesOf o.name obs)).meets settings := by
  constructor
  · intro h o ho
    exact h _ (Tally.mem_entries_ofObservations_iff.2 ⟨⟨o, ho, rfl⟩, rfl⟩)
  · rintro h ⟨name, s⟩ he
    obtain ⟨⟨o, ho, rfl⟩, rfl⟩ := Tally.mem_entries_ofObservations_iff.1 he
    exact h o ho

theorem get?_baseline_ofObservations (obs : List Observation) (name : String) :
    (ofObservations obs).baseline.get? name =
      if valuesOf name obs = [] then none
      else some (Samples.ofValues (valuesOf name obs)).entry := by
  rw [Tally.get?_baseline, Tally.get?_ofObservations]
  split <;> rfl

theorem isEmpty_baseline_ofObservations_iff {obs : List Observation} :
    (ofObservations obs).baseline.isEmpty ↔ obs = [] := by
  rw [NameMap.isEmpty_iff]
  constructor
  · intro h
    refine List.eq_nil_iff_forall_not_mem.2 fun o ho => ?_
    have hget := get?_baseline_ofObservations obs o.name
    rw [h, if_neg (valuesOf_ne_nil_iff.2 ⟨o, ho, rfl⟩)] at hget
    cases hget
  · rintro rfl name
    exact get?_baseline_ofObservations [] name

theorem Gate.measure_of_observations {obs : List Observation}
    (h : observations? stream = some obs) (settings : ConvergenceSettings) :
    measure stream settings =
      (Convergence.evaluate (ofObservations obs) settings).mapError SettingsFlaw.fault := by
  rw [measure, Tally.readStream, Tally.readLines_of_observations h]
  rfl

theorem Gate.measure_of_none (h : observations? stream = none) (settings : ConvergenceSettings) :
    ∃ fault, measure stream settings = .error fault ∧ fault.IsFatal := by
  obtain ⟨fault, hread, hfatal⟩ := Tally.readLines_of_none h .empty 0
  refine ⟨fault, ?_, hfatal⟩
  rw [measure, Tally.readStream]
  dsimp only
  rw [hread]

end Ratchet
