import Ratchet.Report.Text
import Ratchet.Proofs.Comparison
import Ratchet.Proofs.GateStep

/-!
# What a report announces

The line of a check announces that its entry is the new reference if it says that the metric was
adopted, or that the baseline was updated. Lines say so exactly for the verdicts that replace an
entry (`Check.announces_iff`): every other line ends in a number, and no number reads as a word.

Entries are replaced in memory, and only a run without a regression writes them down. So what a
report announces is in the reference file after a run exactly if nothing regressed; after a
regression none of it is there (`announced_entry_stored_iff`).
-/

namespace Ratchet

theorem eq_of_suffix_word {front w w' : List Char} (hw : ' ' ∉ w) (hw' : ' ' ∉ w')
    (h : ' ' :: w <:+ front ++ ' ' :: w') : w = w' := by
  have hself : ' ' :: w' <:+ front ++ ' ' :: w' := List.suffix_append _ _
  rcases List.suffix_or_suffix_of_suffix h hself with h | h
  · rcases List.suffix_cons_iff.1 h with heq | hinside
    · exact (List.cons.inj heq).2
    · exact absurd (hinside.subset List.mem_cons_self) hw'
  · rcases List.suffix_cons_iff.1 h with heq | hinside
    · exact (List.cons.inj heq).2.symm
    · exact absurd (hinside.subset List.mem_cons_self) hw

namespace Regression

def adoptionMark (name : String) : String := "Metric " ++ name ++ " adopted as new baseline"

def updateMark : String := "; baseline updated\n"

/-- The line of a check says that its entry is the reference now. -/
def Check.Announces (c : Check) : Prop :=
  (adoptionMark c.name).toList <+: c.line.toList ∨ updateMark.toList <:+ c.line.toList

theorem not_blank_plain (x : Binary64) : ' ' ∉ x.plain.toList := fun h => by
  rw [Binary64.toList_plain] at h
  cases Layout.not_blank_of_mem_number Layout.plain h

theorem not_updateMark_suffix (front : String) (x : Binary64) :
    ¬ updateMark.toList <:+ (front ++ " " ++ x.plain ++ "\n").toList := by
  intro h
  simp only [String.toList_append, List.append_assoc] at h
  have hword : ' ' :: ("updated".toList ++ ['\n']) <:+ updateMark.toList :=
    ⟨"; baseline".toList, rfl⟩
  have hfree : ' ' ∉ x.plain.toList ++ ['\n'] := by
    simp [not_blank_plain]
  have heq : "updated".toList ++ ['\n'] = x.plain.toList ++ ['\n'] :=
    eq_of_suffix_word (by decide) hfree (hword.trans h)
  have hplain : "updated".toList = x.plain.toList := List.append_cancel_right heq
  have hread := Binary64.read?_plain x
  rw [← hplain] at hread
  cases hread

theorem adoptionMark_prefix_iff (name rest : String) :
    (adoptionMark name).toList <+: ("Metric " ++ name ++ rest).toList ↔
      " adopted as new baseline".toList <+: rest.toList := by
  unfold adoptionMark
  simp only [String.toList_append]
  exact List.prefix_append_right_inj _

/-- A line announces something exactly if the verdict replaces the reference entry. -/
theorem Check.announces_iff {c : Check} : c.Announces ↔ c.verdict.replaces := by
  obtain ⟨name, checked, verdict⟩ := c
  unfold Announces line
  dsimp only
  rw [adoptionMark_prefix_iff]
  cases verdict with
  | adopted =>
    have hmark : " adopted as new baseline: " = " adopted as new baseline" ++ ": " := rfl
    refine iff_of_true (.inl ?_) rfl
    rw [hmark]
    simp only [String.toList_append, List.append_assoc]
    exact List.prefix_append _ _
  | improved previous =>
    refine iff_of_true (.inr ?_) rfl
    simp only [String.toList_append, ← List.append_assoc]
    exact List.suffix_append _ _
  | tolerated reference =>
    have hword : " with sigma " = " with sigma" ++ " " := rfl
    refine iff_of_false (not_or.2 ⟨by simp, ?_⟩) Bool.false_ne_true
    dsimp only
    rw [hword]
    simp only [← String.append_assoc]
    exact not_updateMark_suffix _ _
  | regressed reference =>
    have hword : " when stddev was " = " when stddev was" ++ " " := rfl
    refine iff_of_false (not_or.2 ⟨by simp, ?_⟩) Bool.false_ne_true
    dsimp only
    rw [hword]
    simp only [← String.append_assoc]
    exact not_updateMark_suffix _ _

end Regression

/-! ## Runs -/

/-- The entry of a check is in a baseline file. -/
def Regression.Check.StoredIn (c : Regression.Check) (t : FileTree) (path : String) : Prop :=
  ∃ b, (Baseline.load t path).outcome = .ok b ∧ b.get? c.name = some c.checked

namespace Gate

variable {t : FileTree} {reference checked : String} {settings : RegressionSettings}
  {known fresh : Baseline} {report : Regression.Report}

theorem exists_checked_of_accept
    (h : (accept t reference checked settings).outcome = .ok report) :
    ∃ known fresh, Checked t reference checked settings known fresh report := by
  by_cases hchecked : ∃ known fresh report, Checked t reference checked settings known fresh report
  · obtain ⟨known, fresh, report', hchecked⟩ := hchecked
    obtain ⟨notices, hrun⟩ := accept_of_checked hchecked
    rw [hrun] at h
    split at h
    · cases h
      exact ⟨known, fresh, hchecked⟩
    · obtain ⟨rfl, -⟩ := write_eq_ok_iff.1 h
      exact ⟨known, fresh, hchecked⟩
  · obtain ⟨fault, notices, hrun⟩ := accept_of_not_checked fun known fresh report hc =>
      hchecked ⟨known, fresh, report, hc⟩
    rw [hrun] at h
    cases h

/-- An entry that replaces the reference entry is not what the reference already had. -/
theorem ne_of_replaces {c : Regression.Check}
    (h : Regression.Judged settings c.checked (known.get? c.name) c.verdict)
    (hreplaces : c.verdict.replaces) : known.get? c.name ≠ some c.checked := by
  intro hsame
  rw [hsame] at h
  generalize c.verdict = verdict at h hreplaces
  cases h with
  | improved hlt => exact Binary64.not_lt_self _ hlt
  | regressed => cases hreplaces
  | tolerated => cases hreplaces

/-- What the lines of a report announce is in the reference file after the run exactly if no metric
regressed. After a regression the tree is what it was; otherwise the file holds the baseline of the
report, with every announced entry. -/
theorem announced_entry_stored_iff
    (h : (accept t reference checked settings).outcome = .ok report) :
    let run := accept t reference checked settings
    (∀ c ∈ report.checks, c.Announces →
      (c.StoredIn run.tree reference ↔ report.isRegression = false)) ∧
    (report.isRegression → run.tree = t) ∧
    (report.isRegression = false → ∃ text, report.baseline.render = .ok text ∧
      run.tree.read reference = .ok (.ofText text)) := by
  intro run
  obtain ⟨known, fresh, hchecked⟩ := exists_checked_of_accept h
  have w := Regression.walked_of_check hchecked.checks
  obtain ⟨notices, hrun⟩ := accept_of_checked hchecked
  cases hreg : report.isRegression with
  | true =>
    have htree : run.tree = t := by
      show (accept t reference checked settings).tree = t
      rw [hrun, if_pos hreg]
    refine ⟨fun c hc hannounces => iff_of_false ?_ Bool.noConfusion, fun _ => htree,
      Bool.noConfusion⟩
    rintro ⟨b, hload, hget⟩
    rw [htree, hchecked.loadsKnown] at hload
    cases hload
    exact ne_of_replaces (w.judged c hc) (Regression.Check.announces_iff.1 hannounces) hget
  | false =>
    rw [hrun, if_neg (Bool.eq_false_iff.1 hreg)] at h
    have hsave := (write_eq_ok_iff.1 h).2.2
    have htree : run.tree = (write report report.baseline notices t reference).tree := by
      show (accept t reference checked settings).tree = _
      rw [hrun, if_neg (Bool.eq_false_iff.1 hreg)]
    rw [← htree] at hsave
    refine ⟨fun c hc hannounces => iff_of_true ⟨_, Baseline.load_of_save hsave, ?_⟩ rfl,
      Bool.noConfusion, fun _ => Baseline.read_of_save hsave⟩
    exact w.replaced c hc (Regression.Check.announces_iff.1 hannounces)

/-- One metric improves and another is new. -/
theorem announced_entries_after_improvement :
    let t := FileTree.ofFiles ["w"]
      [("known.tsv", .ofText "a\t10.0\t1.0\n"),
        ("fresh.tsv", .ofText "a\t9.0\t1.0\nb\t5.0\t1.0\n")]
    let run := accept t "known.tsv" "fresh.tsv" .default
    ∃ report, run.outcome = .ok report ∧ report.checks.map (·.name) = ["a", "b"] ∧
      ∀ c ∈ report.checks, c.Announces ∧ c.StoredIn run.tree "known.tsv" := by
  intro t run
  have hsome : run.outcome.toOption.isSome := by decide +kernel
  obtain ⟨report, hreport⟩ := Option.isSome_iff_exists.1 hsome
  have houtcome := toOption_eq_some.1 hreport
  have hnames : run.outcome.toOption.map (fun r => (r.checks.map (·.name),
      r.checks.all (·.verdict.replaces), r.isRegression)) = some (["a", "b"], true, false) := by
    decide +kernel
  rw [hreport] at hnames
  obtain ⟨hnames, hrest⟩ := Prod.mk.inj (Option.some.inj hnames)
  obtain ⟨hreplaces, hpassed⟩ := Prod.mk.inj hrest
  obtain ⟨hstored, -, -⟩ := announced_entry_stored_iff houtcome
  refine ⟨report, houtcome, hnames, fun c hc => ?_⟩
  have hannounces := Regression.Check.announces_iff.2 (List.all_eq_true.1 hreplaces c hc)
  exact ⟨hannounces, (hstored c hc hannounces).2 hpassed⟩

/-- One metric improves and the next regresses. The report announces an update that nothing
wrote. -/
theorem announced_update_not_stored :
    let known := Bytes.ofText "a\t10.0\t1.0\nb\t10.0\t1.0\n"
    let t := FileTree.ofFiles ["w"]
      [("known.tsv", known), ("fresh.tsv", .ofText "a\t9.0\t1.0\nb\t20.0\t1.0\n")]
    let run := accept t "known.tsv" "fresh.tsv" .default
    ∃ report c, run.outcome = .ok report ∧
      report.text = "Metric a improved from 10 to 9; baseline updated\n" ++
        "Metric b has worsened from 10 to 20 when stddev was 1\n❌ Performance test failed.\n" ∧
      run.tree.read "known.tsv" = .ok known ∧
      c ∈ report.checks ∧ c.Announces ∧ ¬ c.StoredIn run.tree "known.tsv" := by
  intro known t run
  have hrun : run.outcome.toOption.map (fun r => (r.text, r.checks.head?)) = some
      ("Metric a improved from 10 to 9; baseline updated\n" ++
        "Metric b has worsened from 10 to 20 when stddev was 1\n❌ Performance test failed.\n",
      some ⟨"a", ⟨.ofNat 9, .ofNat 1⟩, .improved ⟨.ofNat 10, .ofNat 1⟩⟩) := by
    decide +kernel
  obtain ⟨report, hreport, heq⟩ := Option.map_eq_some_iff.1 hrun
  obtain ⟨htext, hhead⟩ := Prod.mk.inj heq
  have hread : run.tree.read "known.tsv" = .ok known := toOption_eq_some.1 (by decide +kernel)
  have hentry : ((Baseline.load run.tree "known.tsv").outcome.toOption.map
      (·.get? "a")) = some (some ⟨.ofNat 10, .ofNat 1⟩) := by
    decide +kernel
  refine ⟨report, _, toOption_eq_some.1 hreport, htext, hread, List.mem_of_mem_head? hhead,
    Regression.Check.announces_iff.2 rfl, ?_⟩
  rintro ⟨b, hload, hget⟩
  rw [toOption_eq_some.2 hload] at hentry
  have hold := Option.some.inj hentry
  have hdifferent : (⟨.ofNat 10, .ofNat 1⟩ : Entry) ≠ ⟨.ofNat 9, .ofNat 1⟩ := by decide +kernel
  exact hdifferent (Option.some.inj (hold.symm.trans hget))

end Gate

end Ratchet
