import Mathlib.Data.List.TakeWhile
import Ratchet.Regression
import Ratchet.Proofs.NameMap
import Ratchet.Proofs.CommandLine

/-!
# What a check says about the reference it started from

`walk` judges each metric against the reference as the metrics before it left it. `Judged` is the
rule for one metric, and `Walked` says of a whole walk what holds with the reference it started
from: every verdict follows the rule against that reference, the first regression is the last
verdict, and an entry of the final baseline is new exactly where a verdict replaced it. No name
comes twice, so a replaced entry is never judged against again; that is what carries the induction
(`walk_walked`).

So the metrics that are going to fail are known before the walk (`fails`). The checks of a report
are those of the metrics in front of the first of them and of that one (`checks_of_check`), and two
reports on the same metrics can be compared without walking again.
-/

namespace Ratchet.Regression

variable {settings : RegressionSettings}

/-- The verdict on a checked entry, from the reference entry of its metric. -/
inductive Judged (settings : RegressionSettings) (checked : Entry) :
    Option Entry → Verdict → Prop where
  | adopted : Judged settings checked none .adopted
  | improved {reference : Entry} : checked.mean < reference.mean →
      Judged settings checked (some reference) (.improved reference)
  | regressed {reference : Entry} : ¬ checked.mean < reference.mean →
      settings.tolerance * reference.stddev < checked.mean - reference.mean →
      Judged settings checked (some reference) (.regressed reference)
  | tolerated {reference : Entry} : ¬ checked.mean < reference.mean →
      ¬ settings.tolerance * reference.stddev < checked.mean - reference.mean →
      Judged settings checked (some reference) (.tolerated reference)

theorem judged_judge (settings : RegressionSettings) (reference? : Option Entry) (checked : Entry) :
    Judged settings checked reference? (judge settings reference? checked) := by
  cases reference? with
  | none => exact .adopted
  | some reference =>
    unfold judge
    dsimp only
    split
    · next h => exact .improved h
    · next h =>
      split
      · next hrise => exact .regressed h hrise
      · next hrise => exact .tolerated h hrise

theorem Judged.eq_judge {checked : Entry} {reference? : Option Entry} {v : Verdict}
    (h : Judged settings checked reference? v) : judge settings reference? checked = v := by
  cases h with
  | adopted => rfl
  | improved h => exact if_pos h
  | regressed h hrise => exact (if_neg h).trans (if_pos hrise)
  | tolerated h hrise => exact (if_neg h).trans (if_neg hrise)

theorem Verdict.isRegression_iff {v : Verdict} : v.isRegression ↔ ∃ e, v = .regressed e := by
  cases v <;> simp [isRegression]

theorem Verdict.isRegression_eq_false_iff {v : Verdict} :
    v.isRegression = false ↔ ∀ e, v ≠ .regressed e := by
  cases v <;> simp [isRegression]

theorem Verdict.replaces_iff {v : Verdict} : v.replaces ↔ v = .adopted ∨ ∃ e, v = .improved e := by
  cases v <;> simp [replaces]

theorem Verdict.replaces_eq_false_iff {v : Verdict} :
    v.replaces = false ↔ v ≠ .adopted ∧ ∀ e, v ≠ .improved e := by
  cases v <;> simp [replaces]

theorem Verdict.replaces_of_isRegression {v : Verdict} (h : v.isRegression) :
    v.replaces = false := by
  obtain ⟨e, rfl⟩ := isRegression_iff.1 h
  rfl

/-! ## Walks -/

/-- The checked metric of a check, as a baseline holds it. -/
def Check.metric (c : Check) : String × Entry := (c.name, c.checked)

/-- The reference as a check leaves it. -/
def Check.apply (c : Check) (reference : Baseline) : Baseline :=
  if c.verdict.replaces then reference.insert c.name c.checked else reference

theorem Check.get?_apply (c : Check) (reference : Baseline) (name : String) :
    (c.apply reference).get? name =
      if c.name = name ∧ c.verdict.replaces then some c.checked else reference.get? name := by
  unfold apply
  split
  · next h => simp [NameMap.get?_insert, h]
  · next h => simp [h]

/-- What a walk over `entries` gives, said with the reference it started from. -/
structure Walked (settings : RegressionSettings) (reference : Baseline)
    (entries : List (String × Entry)) (checks : List Check) (skipped : Nat) (final : Baseline) :
    Prop where
  judged : ∀ c ∈ checks, Judged settings c.checked (reference.get? c.name) c.verdict
  /-- The metrics checked come first; something is left out only after a regression. -/
  covers : ∃ rest, entries = checks.map Check.metric ++ rest ∧ rest.length = skipped ∧
    (rest ≠ [] → ∃ c, checks.getLast? = some c ∧ c.verdict.isRegression)
  passed : ∀ c ∈ checks.dropLast, c.verdict.isRegression = false
  replaced : ∀ c ∈ checks, c.verdict.replaces → final.get? c.name = some c.checked
  kept : ∀ name, (∀ c ∈ checks, c.name = name → c.verdict.replaces = false) →
    final.get? name = reference.get? name

theorem Walked.stop {reference : Baseline} {rest : List (String × Entry)} {c : Check}
    (hc : Judged settings c.checked (reference.get? c.name) c.verdict)
    (h : c.verdict.isRegression) :
    Walked settings reference (c.metric :: rest) [c] rest.length reference where
  judged := by simpa using hc
  covers := ⟨rest, rfl, rfl, fun _ => ⟨c, rfl, h⟩⟩
  passed := by simp
  replaced := by simp [Verdict.replaces_of_isRegression h]
  kept := fun _ _ => rfl

theorem Walked.step {reference final : Baseline} {rest : List (String × Entry)} {c : Check}
    {checks : List Check} {skipped : Nat}
    (hc : Judged settings c.checked (reference.get? c.name) c.verdict)
    (h : c.verdict.isRegression = false) (hnew : ∀ e ∈ rest, c.name ≠ e.1)
    (w : Walked settings (c.apply reference) rest checks skipped final) :
    Walked settings reference (c.metric :: rest) (c :: checks) skipped final := by
  obtain ⟨left, hrest, hskipped, hlast⟩ := w.covers
  have hnames : ∀ d ∈ checks, c.name ≠ d.name := fun d hd =>
    hnew d.metric (hrest ▸ List.mem_append_left _ (List.mem_map_of_mem hd))
  refine ⟨fun d hd => ?_, ⟨left, by rw [hrest]; rfl, hskipped, fun hl => ?_⟩, fun d hd => ?_,
    fun d hd hrep => ?_, fun name hname => ?_⟩
  · rcases List.mem_cons.1 hd with rfl | hd
    · exact hc
    · have hd' := w.judged d hd
      rwa [Check.get?_apply, if_neg fun hn => hnames d hd hn.1] at hd'
  · obtain ⟨d, hd, hreg⟩ := hlast hl
    exact ⟨d, by rw [List.getLast?_cons, hd]; rfl, hreg⟩
  · cases checks with
    | nil => cases hd
    | cons c' checks =>
      rcases List.mem_cons.1 hd with rfl | hd
      · exact h
      · exact w.passed d hd
  · rcases List.mem_cons.1 hd with rfl | hd
    -- The metrics after it have other names and leave the new entry alone.
    · rw [w.kept _ fun d' hd' e => absurd e.symm (hnames d' hd'), Check.get?_apply,
        if_pos ⟨rfl, hrep⟩]
    · exact w.replaced d hd hrep
  · rw [w.kept name fun d hd => hname d (List.mem_cons_of_mem _ hd), Check.get?_apply, if_neg]
    rintro ⟨hn, hrep⟩
    rw [hname c List.mem_cons_self hn] at hrep
    cases hrep

theorem walk_walked (settings : RegressionSettings) (reference : Baseline)
    {entries : List (String × Entry)} (h : entries.Pairwise fun a b => a.1 < b.1) :
    Walked settings reference entries (walk settings reference entries).1
      (walk settings reference entries).2.1 (walk settings reference entries).2.2 := by
  induction entries generalizing reference with
  | nil =>
    exact ⟨by simp [walk], ⟨[], rfl, rfl, by simp⟩, by simp [walk], by simp [walk],
      fun _ _ => rfl⟩
  | cons e rest ih =>
    obtain ⟨name, checked⟩ := e
    obtain ⟨hhead, hrest⟩ := List.pairwise_cons.1 h
    have hjudged := judged_judge settings (reference.get? name) checked
    have hnew : ∀ e ∈ rest, name ≠ e.1 := fun e he hn => by
      have hlt := hhead e he
      rw [← hn] at hlt
      exact name_lt_irrefl name hlt
    rw [walk]
    dsimp only
    split
    · next hreg => exact .stop (c := ⟨name, checked, _⟩) hjudged hreg
    · next hreg =>
      exact .step (c := ⟨name, checked, _⟩) hjudged (Bool.eq_false_iff.2 hreg) hnew (ih _ hrest)

section Final
variable {reference final : Baseline} {entries : List (String × Entry)} {checks : List Check}
  {skipped : Nat}

/-- A walk loses no metric, and adds those that it checked. -/
theorem Walked.isSome_get?_iff (w : Walked settings reference entries checks skipped final)
    (name : String) :
    (final.get? name).isSome ↔ (reference.get? name).isSome ∨ ∃ c ∈ checks, c.name = name := by
  by_cases h : ∃ c ∈ checks, c.name = name ∧ c.verdict.replaces
  · obtain ⟨c, hc, rfl, hrep⟩ := h
    rw [w.replaced c hc hrep]
    exact iff_of_true rfl (.inr ⟨c, hc, rfl⟩)
  · have hkept : ∀ c ∈ checks, c.name = name → c.verdict.replaces = false := fun c hc hn =>
      Bool.eq_false_iff.2 fun hrep => h ⟨c, hc, hn, hrep⟩
    rw [w.kept name hkept]
    refine ⟨.inl, ?_⟩
    rintro (hr | ⟨c, hc, rfl⟩)
    · exact hr
    -- Only an adopted metric has no reference entry, and its entry is new.
    · have hv := hkept c hc rfl
      have hj := w.judged c hc
      cases hr : reference.get? c.name with
      | some e => rfl
      | none =>
        rw [hr] at hj
        rw [← hj.eq_judge] at hv
        cases hv

theorem Walked.entries_eq (w : Walked settings reference entries checks skipped final)
    (h : ∀ c ∈ checks, c.verdict.isRegression = false) : entries = checks.map Check.metric := by
  obtain ⟨rest, hentries, -, hlast⟩ := w.covers
  have hall : rest = [] := Decidable.byContradiction fun hne => by
    obtain ⟨c, hc, hreg⟩ := hlast hne
    rw [h c (List.mem_of_getLast? hc)] at hreg
    cases hreg
  rw [hentries, hall, List.append_nil]

/-- A walk that nothing stopped ends in an empty baseline only if there was nothing to walk over
and nothing to start from. -/
theorem Walked.isEmpty_final_iff (w : Walked settings reference entries checks skipped final)
    (h : ∀ c ∈ checks, c.verdict.isRegression = false) :
    final.isEmpty ↔ reference.isEmpty ∧ entries = [] := by
  have hentries := w.entries_eq h
  have hnone : ∀ name, final.get? name = none ↔
      reference.get? name = none ∧ ∀ c ∈ checks, c.name ≠ name := fun name => by
    have hsome := w.isSome_get?_iff name
    rw [← Option.not_isSome_iff_eq_none, hsome, not_or, Option.not_isSome_iff_eq_none]
    simp
  rw [NameMap.isEmpty_iff, NameMap.isEmpty_iff, hentries, List.map_eq_nil_iff]
  constructor
  · intro hfinal
    refine ⟨fun name => ((hnone name).1 (hfinal name)).1, ?_⟩
    exact List.eq_nil_iff_forall_not_mem.2 fun c hc => ((hnone c.name).1 (hfinal _)).2 c hc rfl
  · rintro ⟨hreference, rfl⟩ name
    exact (hnone name).2 ⟨hreference name, by simp⟩

end Final

/-! ## Reports -/

/-- A list that ends at its first hit, taken off the front of a longer one. -/
theorem takeWhile_append_find? {α : Type} {p : α → Bool} {front rest : List α}
    (h : ∀ c ∈ front.dropLast, p c = false)
    (hrest : rest ≠ [] → ∃ c, front.getLast? = some c ∧ p c) :
    (front ++ rest).takeWhile (!p ·) ++ ((front ++ rest).find? p).toList = front := by
  induction front with
  | nil =>
    have hnil : rest = [] := Decidable.byContradiction fun hne => by simpa using hrest hne
    subst hnil
    rfl
  | cons c front ih =>
    rw [List.cons_append, List.takeWhile_cons, List.find?_cons]
    cases hp : p c with
    | true =>
      -- Only the last of the front is a hit.
      cases front with
      | nil => rfl
      | cons d front => simp [h c (by simp)] at hp
    | false =>
      refine congrArg (c :: ·) (ih (fun d hd => h d ?_) fun hne => ?_)
      · cases front with
        | nil => cases hd
        | cons d' front => exact List.mem_cons_of_mem _ hd
      · obtain ⟨d, hd, hpd⟩ := hrest hne
        cases front with
        | nil =>
          cases hd
          exact absurd hpd (Bool.eq_false_iff.1 hp)
        | cons d' front => exact ⟨d, hd, hpd⟩

/-- The check of a metric against a reference that nothing has replaced yet. -/
def checkOf (settings : RegressionSettings) (reference : Baseline) (e : String × Entry) : Check :=
  ⟨e.1, e.2, judge settings (reference.get? e.1) e.2⟩

/-- Whether the rule finds a metric regressed against a reference. -/
def fails (settings : RegressionSettings) (reference : Baseline) (e : String × Entry) : Bool :=
  (judge settings (reference.get? e.1) e.2).isRegression

@[simp] theorem isRegression_checkOf (reference : Baseline) (e : String × Entry) :
    (checkOf settings reference e).verdict.isRegression = fails settings reference e := rfl

theorem Walked.checks_eq {reference final : Baseline} {entries : List (String × Entry)}
    {checks : List Check} {skipped : Nat}
    (w : Walked settings reference entries checks skipped final) :
    ∃ rest, entries.map (checkOf settings reference) = checks ++ rest ∧ rest.length = skipped ∧
      (rest ≠ [] → ∃ c, checks.getLast? = some c ∧ c.verdict.isRegression) := by
  obtain ⟨rest, hentries, hskipped, hlast⟩ := w.covers
  have hsame : checks.map (checkOf settings reference ∘ Check.metric) = checks :=
    (List.map_congr_left fun c hc => by
      simp only [Function.comp, checkOf, Check.metric, (w.judged c hc).eq_judge, id]).trans
      checks.map_id
  refine ⟨rest.map (checkOf settings reference), ?_, by simpa using hskipped,
    fun hne => hlast (by simpa using hne)⟩
  rw [hentries, List.map_append, List.map_map, hsame]

theorem check_walked (reference checked : Baseline) (h : settings.check = .ok ()) :
    ∃ report, check reference checked settings = .ok report ∧ report.settings = settings ∧
      Walked settings reference checked.entries report.checks report.skipped report.baseline :=
  ⟨_, bind_eq_ok.2 ⟨(), h, rfl⟩, rfl, walk_walked settings reference checked.ascending⟩

theorem walked_of_check {reference checked : Baseline} {report : Report}
    (hcheck : check reference checked settings = .ok report) :
    Walked settings reference checked.entries report.checks report.skipped report.baseline := by
  obtain ⟨_, hsettings, -⟩ := bind_eq_ok.1 hcheck
  obtain ⟨report', hcheck', -, w⟩ := check_walked reference checked hsettings
  cases hcheck.symm.trans hcheck'
  exact w

theorem Report.isRegression_iff {r : Report} :
    r.isRegression ↔ ∃ c ∈ r.checks, c.verdict.isRegression := by
  rw [isRegression, regression?, List.find?_isSome]

theorem Report.isRegression_eq_false_iff {r : Report} :
    r.isRegression = false ↔ ∀ c ∈ r.checks, c.verdict.isRegression = false := by
  rw [Bool.eq_false_iff, ne_eq, isRegression_iff]
  simp

section Fails
variable {reference checked : Baseline} {report : Report}
  (hcheck : check reference checked settings = .ok report)
include hcheck

/-- The verdicts of a check are those of the rule against the original reference, up to the first
regression. -/
theorem checks_of_check :
    report.checks =
      (checked.entries.takeWhile (!fails settings reference ·)).map (checkOf settings reference) ++
        ((checked.entries.find? (fails settings reference)).map
          (checkOf settings reference)).toList := by
  have w := walked_of_check hcheck
  obtain ⟨rest, hall, -, hlast⟩ := w.checks_eq
  rw [← takeWhile_append_find? w.passed hlast, ← hall, List.takeWhile_map, List.find?_map]
  rfl

theorem regression?_of_check :
    report.regression? =
      (checked.entries.find? (fails settings reference)).map (checkOf settings reference) := by
  have hnone : (checked.entries.takeWhile (!fails settings reference ·)).find?
      ((·.verdict.isRegression) ∘ checkOf settings reference) = none :=
    List.find?_eq_none.2 fun e he => by simpa using List.mem_takeWhile_imp he
  rw [Report.regression?, checks_of_check hcheck, List.find?_append, List.find?_map, hnone]
  cases hfind : checked.entries.find? (fails settings reference) with
  | none => rfl
  | some e => simp [List.find?_some hfind]

theorem isRegression_eq_false_iff_fails :
    report.isRegression = false ↔
      ∀ e ∈ checked.entries, fails settings reference e = false := by
  rw [Report.isRegression, regression?_of_check hcheck, Option.isSome_map, Option.isSome_eq_false_iff,
    Option.isNone_iff_eq_none, List.find?_eq_none]
  simp

theorem checks_of_passed (hpassed : report.isRegression = false) :
    report.checks = checked.entries.map (checkOf settings reference) := by
  have hpass := (isRegression_eq_false_iff_fails hcheck).1 hpassed
  rw [checks_of_check hcheck, List.takeWhile_eq_self_iff.2 (by simpa using hpass),
    List.find?_eq_none.2 (by simpa using hpass), Option.map_none, Option.toList_none,
    List.append_nil]

theorem exists_front_of_regression {worse : Check} (hworse : report.regression? = some worse) :
    ∃ front e back, checked.entries = front ++ e :: back ∧
      (∀ d ∈ front, fails settings reference d = false) ∧
      worse = checkOf settings reference e ∧
      report.checks = front.map (checkOf settings reference) ++ [worse] := by
  rw [regression?_of_check hcheck] at hworse
  obtain ⟨e, hfind, rfl⟩ := Option.map_eq_some_iff.1 hworse
  obtain ⟨hfails, front, back, hentries, hfront⟩ := List.find?_eq_some_iff_append.1 hfind
  refine ⟨front, e, back, hentries, by simpa using hfront, rfl, ?_⟩
  rw [checks_of_check hcheck, hfind, hentries, List.takeWhile_append_of_pos hfront,
    List.takeWhile_cons_of_neg (by simpa using hfails), List.append_nil]
  rfl

/-- A check goes on past metrics that pass, and regresses at none of them. -/
theorem prefix_checks_of_passes {front back : List (String × Entry)}
    (hentries : checked.entries = front ++ back)
    (hpass : ∀ e ∈ front, fails settings reference e = false) :
    front.map (checkOf settings reference) <+: report.checks ∧
      ∀ worse, report.regression? = some worse → ∃ e ∈ back, worse = checkOf settings reference e := by
  refine ⟨?_, fun worse hworse => ?_⟩
  · rw [checks_of_check hcheck, hentries, List.takeWhile_append_of_pos (by simpa using hpass),
      List.map_append, List.append_assoc]
    exact List.prefix_append _ _
  · rw [regression?_of_check hcheck, hentries, List.find?_append,
      List.find?_eq_none.2 (by simpa using hpass), Option.none_or] at hworse
    obtain ⟨e, he, rfl⟩ := Option.map_eq_some_iff.1 hworse
    exact ⟨e, List.mem_of_find?_eq_some he, rfl⟩

end Fails

theorem fails_iff_judged {reference : Baseline} {e : String × Entry} :
    fails settings reference e ↔
      ∃ worse, Judged settings e.2 (reference.get? e.1) (.regressed worse) := by
  constructor
  · intro h
    obtain ⟨worse, hworse⟩ := Verdict.isRegression_iff.1 h
    exact ⟨worse, hworse ▸ judged_judge settings (reference.get? e.1) e.2⟩
  · rintro ⟨worse, h⟩
    rw [fails, h.eq_judge]
    rfl

theorem isRegression_iff_judged {reference checked : Baseline} {report : Report}
    (hcheck : check reference checked settings = .ok report) :
    report.isRegression ↔ ∃ name entry worse, checked.get? name = some entry ∧
      Judged settings entry (reference.get? name) (.regressed worse) := by
  rw [← Bool.not_eq_false, isRegression_eq_false_iff_fails hcheck]
  simp only [NameMap.get?_eq_some_iff, ← fails_iff_judged (e := (_, _)), exists_and_left]
  simp

/-- Only from two empty baselines does a check find no regression and end in an empty one. -/
theorem isEmpty_iff_of_check {reference checked : Baseline} {report : Report}
    (hcheck : check reference checked settings = .ok report) :
    (reference.isEmpty ∧ checked.isEmpty) ↔
      report.isRegression = false ∧ report.baseline.isEmpty := by
  have w := walked_of_check hcheck
  cases hreg : report.isRegression with
  | true =>
    obtain ⟨name, entry, _, hentry, -⟩ := (isRegression_iff_judged hcheck).1 hreg
    refine iff_of_false (fun h => ?_) (by simp)
    rw [NameMap.isEmpty_iff.1 h.2 name] at hentry
    cases hentry
  | false =>
    rw [w.isEmpty_final_iff (Report.isRegression_eq_false_iff.1 hreg), eq_self, true_and]
    exact and_congr_right fun _ => List.isEmpty_iff

/-- A check updates its reference while it walks, and reports what judging every metric against the
reference it was given reports: the verdicts in name order, up to the first regression, and how many
are left. Adopted and improved metrics have the checked entry in the final baseline, and every other
name has there what the reference has. -/
theorem check_eq_judging_against_original {settings : RegressionSettings}
    (h : RegressionSettings.toleranceInRange settings.tolerance) (reference checked : Baseline) :
    ∃ (report : Report) (all rest : List Check),
      check reference checked settings = .ok report ∧ report.settings = settings ∧
      all.map Check.metric = checked.entries ∧
      (∀ c ∈ all, Judged settings c.checked (reference.get? c.name) c.verdict) ∧
      all = report.checks ++ rest ∧
      (∀ c ∈ report.checks.dropLast, ∀ e, c.verdict ≠ .regressed e) ∧
      (rest ≠ [] → ∃ c e, report.checks.getLast? = some c ∧ c.verdict = .regressed e) ∧
      report.checks.Pairwise (fun a b => a.name < b.name) ∧
      report.skipped = rest.length ∧ report.checks.length + report.skipped = checked.size ∧
      (report.isRegression ↔ ∃ c ∈ report.checks, ∃ e, c.verdict = .regressed e) ∧
      (∀ c ∈ report.checks, (c.verdict = .adopted ∨ ∃ e, c.verdict = .improved e) →
        report.baseline.get? c.name = some c.checked) ∧
      (∀ name, (∀ c ∈ report.checks, c.name = name →
          c.verdict ≠ .adopted ∧ ∀ e, c.verdict ≠ .improved e) →
        report.baseline.get? name = reference.get? name) := by
  obtain ⟨report, hcheck, hsettings, w⟩ :=
    check_walked reference checked (RegressionSettings.check_eq_ok.2 h)
  obtain ⟨rest, hall, hskipped, hlast⟩ := w.checks_eq
  have hnames : (checked.entries.map (checkOf settings reference)).Pairwise
      fun a b => a.name < b.name := List.pairwise_map.2 checked.ascending
  refine ⟨report, checked.entries.map (checkOf settings reference), rest, hcheck, hsettings, ?_, ?_,
    hall, fun c hc => Verdict.isRegression_eq_false_iff.1 (w.passed c hc), fun hne => ?_, ?_,
    hskipped.symm, ?_, ?_, fun c hc hv => w.replaced c hc (Verdict.replaces_iff.2 hv),
    fun name hname => w.kept name fun c hc hn => Verdict.replaces_eq_false_iff.2 (hname c hc hn)⟩
  · rw [List.map_map]
    exact checked.entries.map_id
  · intro c hc
    obtain ⟨e, -, rfl⟩ := List.mem_map.1 hc
    exact judged_judge settings (reference.get? e.1) e.2
  · obtain ⟨c, hc, hreg⟩ := hlast hne
    obtain ⟨e, he⟩ := Verdict.isRegression_iff.1 hreg
    exact ⟨c, e, hc, he⟩
  · rw [hall] at hnames
    exact (List.pairwise_append.1 hnames).1
  · have hlength := congrArg List.length hall
    rw [List.length_map, List.length_append, hskipped] at hlength
    exact hlength.symm
  · simp only [Report.isRegression_iff, Verdict.isRegression_iff]

/-- Of four metrics the first has become faster, the second is new, the third has become slower and
the fourth is left out. -/
theorem judging_stops_at_slower_metric :
    let settings : RegressionSettings := ⟨.ofNat 3⟩
    let known : Baseline := .ofList [("a", ⟨.ofNat 100, .ofNat 2⟩), ("c", ⟨.ofNat 100, .ofNat 2⟩)]
    let fresh : Baseline := .ofList [("a", ⟨.ofNat 90, .ofNat 1⟩), ("b", ⟨.ofNat 5, .ofNat 1⟩),
      ("c", ⟨.ofNat 107, .ofNat 1⟩), ("d", ⟨.ofNat 5, .ofNat 1⟩)]
    RegressionSettings.toleranceInRange settings.tolerance = true ∧
      ∃ report, check known fresh settings = .ok report ∧
        report.checks.map (fun c => (c.name, c.verdict)) =
          [("a", .improved ⟨.ofNat 100, .ofNat 2⟩), ("b", .adopted),
            ("c", .regressed ⟨.ofNat 100, .ofNat 2⟩)] ∧
        report.skipped = 1 ∧ report.isRegression ∧
        report.baseline.get? "a" = some ⟨.ofNat 90, .ofNat 1⟩ ∧
        report.baseline.get? "b" = some ⟨.ofNat 5, .ofNat 1⟩ ∧
        report.baseline.get? "c" = some ⟨.ofNat 100, .ofNat 2⟩ ∧
        report.baseline.get? "d" = none := by
  intro settings known fresh
  have hrange : RegressionSettings.toleranceInRange settings.tolerance = true := by decide +kernel
  obtain ⟨report, all, rest, hcheck, -, -, -, -, -, -, -, -, hlength, hregression, hreplaced,
    hkept⟩ := check_eq_judging_against_original hrange known fresh
  have hrun : (check known fresh settings).toOption.map (·.checks) =
      some [⟨"a", ⟨.ofNat 90, .ofNat 1⟩, .improved ⟨.ofNat 100, .ofNat 2⟩⟩,
        ⟨"b", ⟨.ofNat 5, .ofNat 1⟩, .adopted⟩,
        ⟨"c", ⟨.ofNat 107, .ofNat 1⟩, .regressed ⟨.ofNat 100, .ofNat 2⟩⟩] := by
    decide +kernel
  rw [hcheck] at hrun
  have hchecks := Option.some.inj hrun
  dsimp only at hchecks
  rw [hchecks] at hlength hregression hreplaced hkept
  have hsize : fresh.size = 4 := by decide +kernel
  have hc : known.get? "c" = some ⟨.ofNat 100, .ofNat 2⟩ := by decide +kernel
  have hd : known.get? "d" = none := by decide +kernel
  rw [hsize] at hlength
  refine ⟨hrange, report, hcheck, by rw [hchecks]; rfl, Nat.add_left_cancel hlength,
    hregression.2 ⟨_, .tail _ (.tail _ (.head _)), _, rfl⟩, ?_, ?_, ?_, ?_⟩
  · exact hreplaced _ (.head _) (.inr ⟨_, rfl⟩)
  · exact hreplaced _ (.tail _ (.head _)) (.inl rfl)
  · rw [← hc]
    exact hkept "c" (by simp)
  · rw [← hd]
    exact hkept "d" (by simp)

end Ratchet.Regression
