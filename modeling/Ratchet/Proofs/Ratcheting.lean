import Ratchet.Proofs.Comparison
import Ratchet.Proofs.Regression

/-!
# What an accepted check makes of the reference

`Entry.lower` keeps an entry unless the mean of the next one is strictly lower, and `Entry.least?`
does so along a list. What is left of entries that compare is the first of those with the least mean
(`FirstLeast`, `firstLeast_of_least?`).

A check without a regression leaves under every name what is left of the known entry and the checked
one (`get?_baseline_of_passed`). A tolerated entry leaves no trace there.
-/

namespace Ratchet

namespace Entry

variable {e e' o : Entry} {es fs : List Entry}

def lower (known fresh : Entry) : Entry := if fresh.mean < known.mean then fresh else known

/-- What is left of entries that come one after the other. -/
def least? : List Entry → Option Entry
  | [] => none
  | e :: es => some (es.foldl lower e)

theorem least?_toList (e? : Option Entry) : least? e?.toList = e? := by
  cases e? <;> rfl

@[simp] theorem lower_self (e : Entry) : lower e e = e := ite_self e

/-- What is left of some entries stands for them all. -/
theorem least?_append (es fs : List Entry) :
    least? ((least? es).toList ++ fs) = least? (es ++ fs) := by
  cases es with
  | nil => rfl
  | cons e es =>
    show some (fs.foldl lower (es.foldl lower e)) = some ((es ++ fs).foldl lower e)
    rw [List.foldl_append]

theorem isSome_least?_iff : (least? es).isSome ↔ es ≠ [] := by
  cases es <;> simp [least?]

theorem lower_eq_or_lt (known fresh : Entry) :
    lower known fresh = known ∨ (lower known fresh).mean < known.mean := by
  unfold lower
  split
  · next h => exact .inr h
  · exact .inl rfl

theorem foldl_lower_eq_or_lt (es : List Entry) (e : Entry) :
    es.foldl lower e = e ∨ (es.foldl lower e).mean < e.mean := by
  induction es generalizing e with
  | nil => exact .inl rfl
  | cons o rest ih =>
    rw [List.foldl_cons]
    rcases ih (lower e o) with hrest | hrest
    · rw [hrest]
      exact lower_eq_or_lt e o
    · rcases lower_eq_or_lt e o with ho | ho
      · rw [ho] at hrest ⊢
        exact .inr hrest
      · exact .inr (Binary64.lt_trans hrest ho)

/-! ## The first of the least -/

/-- The entry has the least mean of all, and those before it have larger ones. -/
def FirstLeast (es : List Entry) (e : Entry) : Prop :=
  ∃ before after, es = before ++ e :: after ∧ (∀ o ∈ before, e.mean < o.mean) ∧
    ∀ o ∈ after, e.mean ≤ o.mean

theorem FirstLeast.mem (h : FirstLeast es e) : e ∈ es := by
  obtain ⟨before, after, rfl, -, -⟩ := h
  simp

theorem FirstLeast.step (h : FirstLeast es e) (he : e.mean.isNan = false)
    (ho : o.mean.isNan = false) : FirstLeast (es ++ [o]) (lower e o) := by
  obtain ⟨before, after, rfl, hbefore, hafter⟩ := h
  unfold lower
  split
  · next hlt =>
    refine ⟨before ++ e :: after, [], rfl, fun x hx => ?_, fun x hx => by cases hx⟩
    rcases List.mem_append.1 hx with hx | hx
    · exact Binary64.lt_trans hlt (hbefore x hx)
    · rcases List.mem_cons.1 hx with rfl | hx
      · exact hlt
      · exact Binary64.lt_of_lt_of_le hlt (hafter x hx)
  · next hlt =>
    refine ⟨before, after ++ [o], by simp, hbefore, fun x hx => ?_⟩
    rcases List.mem_append.1 hx with hx | hx
    · exact hafter x hx
    · rw [List.mem_singleton.1 hx]
      exact Binary64.le_of_not_lt ho he hlt

theorem FirstLeast.foldl (h : FirstLeast es e) (hes : ∀ o ∈ es ++ fs, o.mean.isNan = false) :
    FirstLeast (es ++ fs) (fs.foldl lower e) := by
  induction fs generalizing es e with
  | nil => rwa [List.append_nil]
  | cons o rest ih =>
    have he := hes e (List.mem_append_left _ h.mem)
    have ho := hes o (List.mem_append_right _ List.mem_cons_self)
    rw [List.append_cons] at hes ⊢
    exact ih (h.step he ho) hes

theorem firstLeast_of_least? (hes : ∀ o ∈ es, o.mean.isNan = false) (h : least? es = some e) :
    FirstLeast es e := by
  cases es with
  | nil => cases h
  | cons o rest =>
    cases h
    have hone : FirstLeast [o] o := ⟨[], [], rfl, by simp, by simp⟩
    exact hone.foldl hes

end Entry

/-! ## Checks without a regression -/

namespace Regression

variable {settings : RegressionSettings} {known fresh : Baseline} {report : Report}

theorem metrics_of_passed (hcheck : check known fresh settings = .ok report)
    (hpassed : report.isRegression = false) : report.checks.map Check.metric = fresh.entries :=
  ((walked_of_check hcheck).entries_eq (Report.isRegression_eq_false_iff.1 hpassed)).symm

theorem get?_of_mem_checks (hcheck : check known fresh settings = .ok report)
    (hpassed : report.isRegression = false) {c : Check} (hc : c ∈ report.checks) :
    fresh.get? c.name = some c.checked := by
  rw [NameMap.get?_eq_some_iff, ← metrics_of_passed hcheck hpassed]
  exact List.mem_map_of_mem hc

theorem not_exceeds_of_passed (hcheck : check known fresh settings = .ok report)
    (hpassed : report.isRegression = false) {name : String} {e e' : Entry}
    (he : known.get? name = some e) (he' : fresh.get? name = some e') :
    e'.mean < e.mean ∨ ¬ settings.tolerance * e.stddev < e'.mean - e.mean := by
  refine Decidable.or_iff_not_imp_left.2 fun hlower hrise => ?_
  have hjudged : Judged settings e' (known.get? name) (.regressed e) := he ▸ .regressed hlower hrise
  have hreg := (isRegression_iff_judged hcheck).2 ⟨name, e', e, he', hjudged⟩
  rw [hpassed] at hreg
  cases hreg

theorem get?_baseline_of_mem_checks (hcheck : check known fresh settings = .ok report)
    (hpassed : report.isRegression = false) {c : Check} (hc : c ∈ report.checks) :
    report.baseline.get? c.name = if c.verdict.replaces then some c.checked
      else known.get? c.name := by
  have w := walked_of_check hcheck
  split
  · next hrep => exact w.replaced c hc hrep
  · next hrep =>
    refine w.kept c.name fun c' hc' hname => ?_
    -- Every check of that name is of the same entry, and so has the same verdict.
    have hchecked := get?_of_mem_checks hcheck hpassed hc'
    rw [hname, get?_of_mem_checks hcheck hpassed hc] at hchecked
    rw [← (w.judged c' hc').eq_judge, hname, ← Option.some.inj hchecked, (w.judged c hc).eq_judge]
    exact Bool.eq_false_iff.2 hrep

theorem Judged.least? {known? : Option Entry} {checked : Entry} {v : Verdict}
    (h : Judged settings checked known? v) (hpass : v.isRegression = false) :
    Entry.least? (known?.toList ++ [checked]) = if v.replaces then some checked else known? := by
  cases h with
  | adopted => rfl
  | improved hlower => exact congrArg some (if_pos hlower)
  | regressed => cases hpass
  | tolerated hlower => exact congrArg some (if_neg hlower)

/-- Under every name a check without a regression leaves what is left of the known entry and the
checked one. -/
theorem get?_baseline_of_passed (hcheck : check known fresh settings = .ok report)
    (hpassed : report.isRegression = false) (name : String) :
    report.baseline.get? name =
      Entry.least? ((known.get? name).toList ++ (fresh.get? name).toList) := by
  have w := walked_of_check hcheck
  cases hfresh : fresh.get? name with
  | none =>
    have hkept : ∀ c ∈ report.checks, c.name = name → c.verdict.replaces = false := by
      rintro c hc rfl
      rw [get?_of_mem_checks hcheck hpassed hc] at hfresh
      cases hfresh
    rw [w.kept name hkept, Option.toList_none, List.append_nil, Entry.least?_toList]
  | some e' =>
    have hmem := NameMap.get?_eq_some_iff.1 hfresh
    rw [← metrics_of_passed hcheck hpassed] at hmem
    obtain ⟨c, hc, hce⟩ := List.mem_map.1 hmem
    cases hce
    have hpass := Report.isRegression_eq_false_iff.1 hpassed c hc
    rw [get?_baseline_of_mem_checks hcheck hpassed hc]
    exact ((w.judged c hc).least? hpass).symm

/-- Where the reference entry of every checked metric tolerates it, a check tolerates them all and
leaves the reference as it is. -/
theorem tolerated_of_settled (hcheck : check known fresh settings = .ok report)
    (hsettled : ∀ name e, fresh.get? name = some e →
      ∃ e', known.get? name = some e' ∧ Judged settings e (some e') (.tolerated e')) :
    report.isRegression = false ∧
      (∀ c ∈ report.checks, ∃ e, known.get? c.name = some e ∧ c.verdict = .tolerated e) ∧
      report.baseline = known := by
  have w := walked_of_check hcheck
  have hpassed : report.isRegression = false := by
    refine Bool.eq_false_iff.2 fun hreg => ?_
    obtain ⟨name, e, worse, he, hjudged⟩ := (isRegression_iff_judged hcheck).1 hreg
    obtain ⟨e', he', htolerated⟩ := hsettled name e he
    rw [he'] at hjudged
    cases htolerated.eq_judge.symm.trans hjudged.eq_judge
  have hverdicts : ∀ c ∈ report.checks,
      ∃ e, known.get? c.name = some e ∧ c.verdict = .tolerated e := fun c hc => by
    obtain ⟨e', he', htolerated⟩ := hsettled c.name _ (get?_of_mem_checks hcheck hpassed hc)
    have hjudged := w.judged c hc
    rw [he'] at hjudged
    exact ⟨e', he', hjudged.eq_judge.symm.trans htolerated.eq_judge⟩
  refine ⟨hpassed, hverdicts, NameMap.ext_get? fun name => w.kept name fun c hc _ => ?_⟩
  obtain ⟨e, -, hverdict⟩ := hverdicts c hc
  rw [hverdict]
  rfl

end Regression

end Ratchet
