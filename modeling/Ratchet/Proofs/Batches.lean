import Ratchet.Proofs.Ratcheting

/-!
# Checking in batches

Two baselines without a common name can be checked one after the other, in either order, or as one
(`check_in_batches`). The verdict on a metric comes of its own reference entry, and a check that
passes leaves the entries of all other names as they were (`get?_baseline_of_get?_eq_none`). So the
second batch gets the verdicts that it would have got at first (`check_after_batch`), and under every
name the same entries come together in the end.

`NameMap.union` puts two maps together. Of maps without a common name it holds the entries of both,
each once (`perm_entries_union`), whatever the order in which their names interleave.
-/

namespace Ratchet

namespace NameMap

variable {α : Type} {m m' : NameMap α}

/-- The entries of both maps; under a common name that of the second. -/
def union (m m' : NameMap α) : NameMap α :=
  m'.entries.foldl (fun m e => m.insert e.1 e.2) m

theorem get?_union (m m' : NameMap α) (name : String) :
    (m.union m').get? name = (m'.get? name).or (m.get? name) :=
  get?_foldl_insert m'.ascending m name

/-- No name is in both maps. -/
def Apart (m m' : NameMap α) : Prop := ∀ name ∈ m.names, name ∉ m'.names

namespace Apart

theorem get?_eq_none (h : m.Apart m') {name : String} {v : α} (hv : m.get? name = some v) :
    m'.get? name = none :=
  get?_eq_none_iff.2 (h name (isSome_get?_iff.1 (Option.isSome_of_mem hv)))

theorem symm (h : m.Apart m') : m'.Apart m := fun name hname hname' => h name hname' hname

theorem union_comm (h : m.Apart m') : m.union m' = m'.union m := by
  refine ext_get? fun name => ?_
  rw [get?_union, get?_union]
  cases hm : m.get? name with
  | none => rw [Option.or_none, Option.none_or]
  | some v => rw [h.get?_eq_none hm, Option.or_none, Option.none_or]

theorem toList_get?_union (h : m.Apart m') (name : String) :
    ((m.union m').get? name).toList = (m.get? name).toList ++ (m'.get? name).toList := by
  rw [get?_union]
  cases hm : m.get? name with
  | none => rw [Option.or_none, Option.toList_none, List.nil_append]
  | some v => rw [h.get?_eq_none hm, Option.none_or, Option.toList_none, List.append_nil]

theorem mem_entries_union_iff (h : m.Apart m') {e : String × α} :
    e ∈ (m.union m').entries ↔ e ∈ m.entries ∨ e ∈ m'.entries := by
  obtain ⟨name, v⟩ := e
  rw [← get?_eq_some_iff, ← get?_eq_some_iff, ← get?_eq_some_iff, ← Option.mem_toList,
    h.toList_get?_union, List.mem_append, Option.mem_toList, Option.mem_toList]

theorem perm_entries_union (h : m.Apart m') :
    (m.union m').entries.Perm (m.entries ++ m'.entries) := by
  have hnodup : (m.entries ++ m'.entries).Nodup := by
    refine List.nodup_append.2 ⟨nodup_of_ascending m.ascending, nodup_of_ascending m'.ascending,
      fun e he e' he' heq => ?_⟩
    subst heq
    exact h e.1 (List.mem_map_of_mem he) (List.mem_map_of_mem he')
  refine (List.perm_ext_iff_of_nodup (nodup_of_ascending (m.union m').ascending) hnodup).2
    fun e => ?_
  rw [h.mem_entries_union_iff, List.mem_append]

end Apart

end NameMap

namespace Regression

variable {settings : RegressionSettings} {known fresh : Baseline} {report : Report}

theorem get?_baseline_of_get?_eq_none (hcheck : check known fresh settings = .ok report)
    (hpassed : report.isRegression = false) {name : String} (hnone : fresh.get? name = none) :
    report.baseline.get? name = known.get? name := by
  rw [get?_baseline_of_passed hcheck hpassed, hnone, Option.toList_none, List.append_nil,
    Entry.least?_toList]

theorem ratcheted_of_passed (hcheck : check known fresh settings = .ok report)
    (hpassed : report.isRegression = false) :
    report.ratcheted =
      fresh.entries.countP fun e => (checkOf settings known e).verdict.replaces := by
  rw [Report.ratcheted, checks_of_passed hcheck hpassed, List.countP_map]
  rfl

section Batches
variable {a b : Baseline} {first second all : Report} (hapart : a.Apart b)
  (hfirst : check known a settings = .ok first) (hsecond : check known b settings = .ok second)
  (hall : check known (a.union b) settings = .ok all)
include hapart hfirst hsecond hall

theorem isRegression_union_eq_false_iff :
    all.isRegression = false ↔ first.isRegression = false ∧ second.isRegression = false := by
  rw [isRegression_eq_false_iff_fails hall, isRegression_eq_false_iff_fails hfirst,
    isRegression_eq_false_iff_fails hsecond]
  simp only [hapart.mem_entries_union_iff, or_imp, forall_and]

/-- The second batch is judged against the baseline that the first one left as it would have been
judged at first, and leaves what the union leaves. -/
theorem check_after_batch (hpassed : first.isRegression = false)
    (hpassed' : second.isRegression = false) :
    ∃ next, check first.baseline b settings = .ok next ∧ next.isRegression = false ∧
      next.baseline = all.baseline ∧ first.ratcheted + next.ratcheted = all.ratcheted := by
  obtain ⟨_, hsettings, -⟩ := bind_eq_ok.1 hfirst
  obtain ⟨next, hnext, -⟩ := check_walked first.baseline b hsettings
  have hpassedAll := (isRegression_union_eq_false_iff hapart hfirst hsecond hall).2
    ⟨hpassed, hpassed'⟩
  have hsame : ∀ e ∈ b.entries, first.baseline.get? e.1 = known.get? e.1 := fun e he =>
    get?_baseline_of_get?_eq_none hfirst hpassed
      (hapart.symm.get?_eq_none (NameMap.get?_eq_some_iff.2 he))
  have hcheckOf : ∀ e ∈ b.entries,
      checkOf settings first.baseline e = checkOf settings known e := fun e he => by
    rw [checkOf, checkOf, hsame e he]
  have hpassedNext : next.isRegression = false := by
    refine (isRegression_eq_false_iff_fails hnext).2 fun e he => ?_
    rw [← isRegression_checkOf, hcheckOf e he]
    exact (isRegression_eq_false_iff_fails hsecond).1 hpassed' e he
  refine ⟨next, hnext, hpassedNext, NameMap.ext_get? fun name => ?_, ?_⟩
  · rw [get?_baseline_of_passed hnext hpassedNext, get?_baseline_of_passed hfirst hpassed,
      get?_baseline_of_passed hall hpassedAll, Entry.least?_append, hapart.toList_get?_union,
      List.append_assoc]
  · rw [ratcheted_of_passed hfirst hpassed, ratcheted_of_passed hnext hpassedNext,
      ratcheted_of_passed hall hpassedAll, hapart.perm_entries_union.countP_eq, List.countP_append]
    refine congrArg _ (List.countP_congr fun e he => ?_)
    rw [hcheckOf e he]

end Batches

/-- Checking in batches is checking at once. Of two baselines without a common name the union
regresses exactly if one of them does. If neither does, each can be checked against the baseline
that the other one left: that passes, ends in the baseline of the union and replaces what is left
to replace of its entries. -/
theorem check_in_batches (hrange : RegressionSettings.toleranceInRange settings.tolerance)
    {a b : Baseline} (hapart : a.Apart b) (known : Baseline) :
    ∃ all first second, check known (a.union b) settings = .ok all ∧
      check known a settings = .ok first ∧ check known b settings = .ok second ∧
      (all.isRegression ↔ first.isRegression ∨ second.isRegression) ∧
      (first.isRegression = false → second.isRegression = false →
        (∃ next, check first.baseline b settings = .ok next ∧ next.isRegression = false ∧
          next.baseline = all.baseline ∧ first.ratcheted + next.ratcheted = all.ratcheted) ∧
        ∃ next, check second.baseline a settings = .ok next ∧ next.isRegression = false ∧
          next.baseline = all.baseline ∧ second.ratcheted + next.ratcheted = all.ratcheted) := by
  have hsettings := RegressionSettings.check_eq_ok.2 hrange
  obtain ⟨all, hall, -⟩ := check_walked known (a.union b) hsettings
  obtain ⟨first, hfirst, -⟩ := check_walked known a hsettings
  obtain ⟨second, hsecond, -⟩ := check_walked known b hsettings
  refine ⟨all, first, second, hall, hfirst, hsecond, ?_, fun hpassed hpassed' => ⟨?_, ?_⟩⟩
  · have hiff := isRegression_union_eq_false_iff hapart hfirst hsecond hall
    rw [← Bool.not_eq_false, hiff, not_and_or, Bool.not_eq_false, Bool.not_eq_false]
  · exact check_after_batch hapart hfirst hsecond hall hpassed hpassed'
  · rw [hapart.union_comm] at hall
    exact check_after_batch hapart.symm hsecond hfirst hall hpassed' hpassed

/-- The names of the batches interleave: an improvement and a new metric, a tolerated rise and a new
metric. -/
theorem check_in_interleaved_batches :
    let settings : RegressionSettings := .default
    let known : Baseline := .ofList [("a", ⟨.ofNat 100, .ofNat 2⟩), ("b", ⟨.ofNat 100, .ofNat 2⟩)]
    let a : Baseline := .ofList [("a", ⟨.ofNat 90, 0⟩), ("c", ⟨.ofNat 5, 0⟩)]
    let b : Baseline := .ofList [("b", ⟨.ofNat 105, 0⟩), ("d", ⟨.ofNat 7, 0⟩)]
    RegressionSettings.toleranceInRange settings.tolerance = true ∧ a.Apart b ∧
      ∃ all first next, check known (a.union b) settings = .ok all ∧
        check known a settings = .ok first ∧ check first.baseline b settings = .ok next ∧
        all.isRegression = false ∧ next.baseline = all.baseline ∧ first.ratcheted = 2 ∧
        first.ratcheted + next.ratcheted = all.ratcheted := by
  intro settings known a b
  have hrange : RegressionSettings.toleranceInRange settings.tolerance = true := by decide +kernel
  have hapart : a.Apart b := by
    have hall : ∀ name ∈ a.names, name ∉ b.names := by decide +kernel
    exact hall
  obtain ⟨all, first, second, hall, hfirst, hsecond, hiff, hbatches⟩ :=
    check_in_batches hrange hapart known
  have hrun : (check known a settings).toOption.map (fun r => (r.isRegression, r.ratcheted)) =
      some (false, 2) := by
    decide +kernel
  have hrun' : (check known b settings).toOption.map Report.isRegression = some false := by
    decide +kernel
  rw [hfirst] at hrun
  rw [hsecond] at hrun'
  obtain ⟨hpassed, htwo⟩ := Prod.mk.inj (Option.some.inj hrun)
  have hpassed' : second.isRegression = false := Option.some.inj hrun'
  obtain ⟨⟨next, hnext, -, hbaseline, hratcheted⟩, -⟩ := hbatches hpassed hpassed'
  have hpassedAll : all.isRegression = false := by
    rw [← Bool.not_eq_true, hiff, hpassed, hpassed']
    simp
  exact ⟨hrange, hapart, all, first, next, hall, hfirst, hnext, hpassedAll, hbaseline, htwo,
    hratcheted⟩

end Regression

end Ratchet
