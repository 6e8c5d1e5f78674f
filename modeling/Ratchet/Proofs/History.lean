import Ratchet.Proofs.GateStep
import Ratchet.Proofs.Ratcheting

/-!
# Histories of a reference

`History reference t attempts t'`: acceptance runs against one reference lead from the tree `t` to
`t'`. What happens to other files between the runs is left open, so every attempt brings the tree it
found, of which only the reference is that of the run before.

One attempt either accepts what it checked or leaves its tree alone (`Attempt.run_cases`). By
induction the reference of a whole history holds what is left, metric by metric, of its first entry
and the accepted ones in their order (`History.load`). Nothing else of the attempts can be seen in
it: not how often a slowdown was tolerated, and not what a regression or a fault turned away.
-/

namespace Ratchet

/-- Every mean compares with others. -/
def Baseline.Comparable (b : Baseline) : Prop := ∀ e ∈ b.entries, e.2.mean.isNan = false

instance (b : Baseline) : Decidable b.Comparable :=
  inferInstanceAs (Decidable (∀ e ∈ b.entries, e.2.mean.isNan = false))

theorem Baseline.Comparable.isNan_eq_false {b : Baseline} (h : b.Comparable) {name : String}
    {e : Entry} (he : b.get? name = some e) : e.mean.isNan = false :=
  h (name, e) (NameMap.get?_eq_some_iff.1 he)

namespace Gate

/-- An acceptance run: the tree it found, the file it checked and its settings. -/
structure Attempt where
  found : FileTree
  checked : String
  settings : RegressionSettings

namespace Attempt

variable {reference : String} {a : Attempt} {known fresh : Baseline}

def run (reference : String) (a : Attempt) : Run Regression.Report :=
  accept a.found reference a.checked a.settings

/-- The baseline that an attempt accepted; none after a regression or a fault. -/
def accepted? (reference : String) (a : Attempt) : Option Baseline :=
  match (a.run reference).outcome with
  | .ok report =>
    if report.isRegression then none else (Baseline.load a.found a.checked).outcome.toOption
  | .error _ => none

/-- The accepted entry of a metric. -/
def offer? (reference name : String) (a : Attempt) : Option Entry :=
  (a.accepted? reference).bind (·.get? name)

theorem accepted?_of_accepted {report : Regression.Report} {t' : FileTree}
    (h : Accepted a.found reference a.checked a.settings known fresh report t') :
    a.accepted? reference = some fresh := by
  have houtcome : (a.run reference).outcome = .ok report := (accept_of_accepted h).1
  unfold accepted?
  rw [houtcome]
  dsimp only
  rw [if_neg (Bool.eq_false_iff.1 h.passed), h.loadsFresh]
  rfl

theorem run_cases (reference : String) (a : Attempt) :
    (∃ known fresh report, Accepted a.found reference a.checked a.settings known fresh report
        (a.run reference).tree ∧ a.accepted? reference = some fresh) ∨
      (a.run reference).tree = a.found ∧ a.accepted? reference = none := by
  rcases accept_cases a.found reference a.checked a.settings with
    ⟨known, fresh, report, haccepted⟩ | ⟨htree, hregression⟩
  · exact .inl ⟨known, fresh, report, haccepted, accepted?_of_accepted haccepted⟩
  · refine .inr ⟨htree, ?_⟩
    unfold accepted?
    split
    · next report houtcome => exact if_pos (hregression report houtcome)
    · rfl

theorem accepted?_eq_some_iff :
    a.accepted? reference = some fresh ↔ ∃ known report,
      Accepted a.found reference a.checked a.settings known fresh report
        (a.run reference).tree := by
  constructor
  · intro h
    rcases run_cases reference a with ⟨known, fresh', report, haccepted, hsome⟩ | ⟨-, hnone⟩
    · cases h.symm.trans hsome
      exact ⟨known, report, haccepted⟩
    · cases h.symm.trans hnone
  · rintro ⟨known, report, haccepted⟩
    exact accepted?_of_accepted haccepted

/-- The reference after an attempt holds what is left of the known entry and the accepted one. -/
theorem load_run (hload : (Baseline.load a.found reference).outcome = .ok known) :
    ∃ b, (Baseline.load (a.run reference).tree reference).outcome = .ok b ∧ ∀ name,
      b.get? name =
        Entry.least? ((known.get? name).toList ++ (a.offer? reference name).toList) := by
  unfold offer?
  rcases run_cases reference a with
    ⟨known', fresh, report, haccepted, hsome⟩ | ⟨htree, hnone⟩
  · cases hload.symm.trans haccepted.loadsKnown
    refine ⟨report.baseline, Baseline.load_of_save haccepted.saved, fun name => ?_⟩
    rw [hsome]
    exact Regression.get?_baseline_of_passed haccepted.checks haccepted.passed name
  · refine ⟨known, htree ▸ hload, fun name => ?_⟩
    rw [hnone, Option.bind_none, Option.toList_none, List.append_nil, Entry.least?_toList]

end Attempt

/-- The attempts, one after the other, lead from one tree to another. -/
inductive History (reference : String) : FileTree → List Attempt → FileTree → Prop where
  | nil (t : FileTree) : History reference t [] t
  | step {t t' : FileTree} {a : Attempt} {rest : List Attempt} :
      a.found.read reference = t.read reference →
      History reference (a.run reference).tree rest t' → History reference t (a :: rest) t'

/-- The entries that a metric had in the accepted baselines, in their order. -/
def offers (reference name : String) (attempts : List Attempt) : List Entry :=
  attempts.filterMap (Attempt.offer? reference name)

section History
variable {reference : String} {t t' : FileTree} {attempts : List Attempt} {first : Baseline}

theorem mem_toList_append_offers_iff {name : String} {e : Entry} :
    e ∈ (first.get? name).toList ++ offers reference name attempts ↔
      first.get? name = some e ∨ ∃ a ∈ attempts, ∃ fresh,
        a.accepted? reference = some fresh ∧ fresh.get? name = some e := by
  simp only [List.mem_append, Option.mem_toList, offers, List.mem_filterMap, Attempt.offer?,
    Option.bind_eq_some_iff]

theorem offers_cons (reference name : String) (a : Attempt) (rest : List Attempt) :
    offers reference name (a :: rest) =
      (a.offer? reference name).toList ++ offers reference name rest := by
  unfold offers
  rw [List.filterMap_cons]
  cases a.offer? reference name <;> rfl

/-- There is an entry for a metric if the first baseline or an accepted one had one. -/
theorem toList_append_offers_ne_nil_iff {name : String} :
    (first.get? name).toList ++ offers reference name attempts ≠ [] ↔
      (first.get? name).isSome ∨ ∃ a ∈ attempts, ∃ fresh,
        a.accepted? reference = some fresh ∧ (fresh.get? name).isSome := by
  constructor
  · intro hne
    obtain ⟨e, he⟩ := List.exists_mem_of_ne_nil _ hne
    rcases mem_toList_append_offers_iff.1 he with he | ⟨a, ha, fresh, hfresh, he⟩
    · exact .inl (Option.isSome_of_mem he)
    · exact .inr ⟨a, ha, fresh, hfresh, Option.isSome_of_mem he⟩
  · rintro (hsome | ⟨a, ha, fresh, hfresh, hsome⟩)
    · obtain ⟨e, he⟩ := Option.isSome_iff_exists.1 hsome
      exact List.ne_nil_of_mem (mem_toList_append_offers_iff.2 (.inl he))
    · obtain ⟨e, he⟩ := Option.isSome_iff_exists.1 hsome
      exact List.ne_nil_of_mem (mem_toList_append_offers_iff.2 (.inr ⟨a, ha, fresh, hfresh, he⟩))

theorem History.next {checked : String} {settings : RegressionSettings}
    (h : History reference (Attempt.run reference ⟨t, checked, settings⟩).tree attempts t') :
    History reference t (⟨t, checked, settings⟩ :: attempts) t' := .step rfl h

/-- The reference of a history holds what is left of its entries from the first on. -/
theorem History.load (h : History reference t attempts t')
    (hload : (Baseline.load t reference).outcome = .ok first) :
    ∃ b, (Baseline.load t' reference).outcome = .ok b ∧ ∀ name,
      b.get? name = Entry.least? ((first.get? name).toList ++ offers reference name attempts) := by
  induction h generalizing first with
  | nil t =>
    refine ⟨first, hload, fun name => ?_⟩
    rw [offers, List.filterMap_nil, List.append_nil, Entry.least?_toList]
  | @step t t' a rest hfound hrest ih =>
    rw [← Baseline.load_eq_of_read hfound] at hload
    obtain ⟨next, hnext, hstep⟩ := Attempt.load_run hload
    obtain ⟨b, hb, hrun⟩ := ih hnext
    refine ⟨b, hb, fun name => ?_⟩
    -- What the first attempt left stands for all entries up to it.
    rw [hrun, hstep, Entry.least?_append, List.append_assoc, offers_cons]

/-- No entry gets lost, and none is replaced but by one with a lower mean. -/
theorem History.get?_eq_or_lt (h : History reference t attempts t')
    (hload : (Baseline.load t reference).outcome = .ok first) {b : Baseline}
    (hb : (Baseline.load t' reference).outcome = .ok b) {name : String} {e : Entry}
    (he : first.get? name = some e) :
    ∃ e', b.get? name = some e' ∧ (e' = e ∨ e'.mean < e.mean) := by
  obtain ⟨b', hb', hrun⟩ := h.load hload
  cases hb.symm.trans hb'
  refine ⟨(offers reference name attempts).foldl Entry.lower e, ?_, Entry.foldl_lower_eq_or_lt _ e⟩
  rw [hrun, he]
  rfl

/-- The ratchet over a whole history, from a reference without incomparable means and over accepted
baselines without any. At its end the reference loads. It has an entry for a metric exactly if it
had one at first or an accepted baseline had one. The entry has the least mean of all those, and is
the first of them that has, standard deviation included. Whatever comes later, it stays or makes
room for one with a lower mean. And what is accepted next is compared with that least mean, however
many slowdowns were tolerated in between. -/
theorem reference_of_history (h : History reference t attempts t')
    (hload : (Baseline.load t reference).outcome = .ok first) (hfirst : first.Comparable)
    (haccepted : ∀ a ∈ attempts, ∀ fresh, a.accepted? reference = some fresh →
      fresh.Comparable) :
    ∃ b, (Baseline.load t' reference).outcome = .ok b ∧
      (∀ name, (b.get? name).isSome ↔ (first.get? name).isSome ∨
        ∃ a ∈ attempts, ∃ fresh, a.accepted? reference = some fresh ∧
          (fresh.get? name).isSome) ∧
      (∀ name e, b.get? name = some e →
        Entry.FirstLeast ((first.get? name).toList ++ offers reference name attempts) e) ∧
      (∀ later t'', History reference t' later t'' →
        ∃ b', (Baseline.load t'' reference).outcome = .ok b' ∧ ∀ name e, b.get? name = some e →
          ∃ e', b'.get? name = some e' ∧ (e' = e ∨ e'.mean < e.mean)) ∧
      ∀ a : Attempt, a.found.read reference = t'.read reference → ∀ fresh,
        a.accepted? reference = some fresh → ∀ name e e', b.get? name = some e →
          fresh.get? name = some e' →
          e'.mean < e.mean ∨ ¬ a.settings.tolerance * e.stddev < e'.mean - e.mean := by
  obtain ⟨b, hb, hrun⟩ := h.load hload
  refine ⟨b, hb, fun name => ?_, fun name e he => ?_, fun later t'' hlater => ?_,
    fun a hfound fresh hfresh name e e' he he' => ?_⟩
  · rw [hrun, Entry.isSome_least?_iff, toList_append_offers_ne_nil_iff]
  · rw [hrun] at he
    refine Entry.firstLeast_of_least? (fun o ho => ?_) he
    rcases mem_toList_append_offers_iff.1 ho with ho | ⟨a, ha, fresh, hfresh, ho⟩
    · exact hfirst.isNan_eq_false ho
    · exact (haccepted a ha fresh hfresh).isNan_eq_false ho
  · obtain ⟨b', hb', -⟩ := hlater.load hb
    exact ⟨b', hb', fun name e he => hlater.get?_eq_or_lt hb hb' he⟩
  · obtain ⟨known, report, hrun'⟩ := Attempt.accepted?_eq_some_iff.1 hfresh
    have hknown := hrun'.loadsKnown
    rw [Baseline.load_eq_of_read hfound] at hknown
    cases hb.symm.trans hknown
    exact Regression.not_exceeds_of_passed hrun'.checks hrun'.passed he he'

/-- A slowdown within tolerance, one that is within tolerance of the first but not of the reference,
and an improvement. -/
theorem reference_of_slowdowns_and_improvement :
    let reference := "ref.tsv"
    let t := FileTree.ofFiles ["w"] [(reference, .ofText "a\t100.0\t2.0\n"),
      ("slow.tsv", .ofText "a\t104.0\t2.0\n"), ("slower.tsv", .ofText "a\t108.0\t2.0\n"),
      ("fast.tsv", .ofText "a\t90.0\t1.0\nb\t5.0\t0.0\n")]
    let slow : Attempt := ⟨t, "slow.tsv", .default⟩
    let slower : Attempt := ⟨(slow.run reference).tree, "slower.tsv", .default⟩
    let fast : Attempt := ⟨(slower.run reference).tree, "fast.tsv", .default⟩
    [slow, slower, fast].map (fun a => (a.accepted? reference).isSome) = [true, false, true] ∧
      ∃ b, (Baseline.load (fast.run reference).tree reference).outcome = .ok b ∧
        (b.get? "b").isSome ∧ b.get? "a" = some ⟨.ofNat 90, .ofNat 1⟩ ∧
        Entry.FirstLeast (⟨.ofNat 100, .ofNat 2⟩ :: offers reference "a" [slow, slower, fast])
          ⟨.ofNat 90, .ofNat 1⟩ := by
  intro reference t slow slower fast
  let first : Baseline := .ofList [("a", ⟨.ofNat 100, .ofNat 2⟩)]
  let fresh : Baseline := .ofList [("a", ⟨.ofNat 90, .ofNat 1⟩), ("b", ⟨.ofNat 5, 0⟩)]
  have h : History reference t [slow, slower, fast] (fast.run reference).tree :=
    .next (.next (.next (.nil _)))
  have hload : (Baseline.load t reference).outcome = .ok first :=
    toOption_eq_some.1 (by decide +kernel)
  have haccepted : ∀ a ∈ [slow, slower, fast], ∀ fresh, a.accepted? reference = some fresh →
      fresh.Comparable := by
    decide +kernel
  obtain ⟨b, hb, hsome, hleast, -⟩ :=
    reference_of_history h hload (by decide +kernel) haccepted
  have hfresh : fast.accepted? reference = some fresh := by decide +kernel
  have hadopted : ∃ a ∈ [slow, slower, fast], ∃ fresh, a.accepted? reference = some fresh ∧
      (fresh.get? "b").isSome :=
    ⟨fast, by simp, fresh, hfresh, by decide +kernel⟩
  have hentry : (Baseline.load (fast.run reference).tree reference).outcome.toOption.bind
      (·.get? "a") = some ⟨.ofNat 90, .ofNat 1⟩ := by
    decide +kernel
  rw [toOption_eq_some.2 hb, Option.bind_some] at hentry
  have hknown : first.get? "a" = some ⟨.ofNat 100, .ofNat 2⟩ := by decide +kernel
  have hfirst := hleast "a" _ hentry
  rw [hknown] at hfirst
  exact ⟨by decide +kernel, b, hb, (hsome "b").2 (.inr hadopted), hentry, hfirst⟩

end History

end Gate

end Ratchet
