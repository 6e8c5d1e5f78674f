import Ratchet.Proofs.JsonDocument
import Ratchet.Report.Document

/-!
# Reports are told apart by their documents

A report as a document holds each of its parts in a field of its own, and each part can be told from
its field: an entry, a baseline, a verdict by its name and the entry it was judged against, a check,
a whole report (`Regression.Report.json_injective`). The document reads back from the text, so two
reports with one text are equal, as long as their numbers are finite (`reports_told_apart`): one
that is not finite is written as `null`, whichever it is.

A shortfall has no numbers but two counts. The share in percent stands beside them, and is `null` of
no samples at all; it adds nothing that the counts do not say.
-/

namespace Ratchet

structure Entry.Finite (e : Entry) : Prop where
  mean : e.mean.isFinite = true
  stddev : e.stddev.isFinite = true

instance (e : Entry) : Decidable e.Finite :=
  decidable_of_iff (e.mean.isFinite = true ∧ e.stddev.isFinite = true)
    ⟨fun h => ⟨h.1, h.2⟩, fun h => ⟨h.mean, h.stddev⟩⟩

def Baseline.Finite (b : Baseline) : Prop := ∀ e ∈ b.entries, e.2.Finite

instance (b : Baseline) : Decidable b.Finite :=
  inferInstanceAs (Decidable (∀ e ∈ b.entries, e.2.Finite))

namespace Regression

def Verdict.Finite (v : Verdict) : Prop := ∀ e ∈ v.against?, e.Finite

structure Check.Finite (c : Check) : Prop where
  checked : c.checked.Finite
  verdict : c.verdict.Finite

structure Report.Finite (r : Report) : Prop where
  checks : ∀ c ∈ r.checks, c.Finite
  baseline : r.baseline.Finite
  tolerance : r.settings.tolerance.isFinite = true

end Regression

/-- A shortfall holds no number that could be anything but finite. -/
def Convergence.Verdict.Finite : Convergence.Verdict → Prop
  | .converged b => b.Finite
  | .shortfall _ => True

theorem Json.finite_cons {name : String} {value : Json} {fields : List (String × Json)}
    (hvalue : value.Finite) (hrest : (Json.object fields).Finite) :
    (Json.object ((name, value) :: fields)).Finite := by
  cases hrest with
  | object _ h => exact .object _ (List.forall_mem_cons.2 ⟨hvalue, h⟩)

theorem Json.finite_object_nil : (Json.object []).Finite := .object [] fun _ h => by cases h

theorem Entry.Finite.json {e : Entry} (h : e.Finite) : e.json.Finite :=
  Json.finite_cons (.number _ h.mean) (Json.finite_cons (.number _ h.stddev) Json.finite_object_nil)

theorem Entry.json_injective {e e' : Entry} (h : e.json = e'.json) : e = e' := by
  cases e
  cases e'
  simpa [Entry.json] using h

theorem Baseline.Finite.json {b : Baseline} (h : b.Finite) : b.json.Finite := by
  refine .object _ fun f hf => ?_
  obtain ⟨e, he, rfl⟩ := List.mem_map.1 hf
  exact (h e he).json

theorem Baseline.json_injective {b b' : Baseline} (h : b.json = b'.json) : b = b' := by
  refine NameMap.ext ((List.map_inj_right fun e e' heq => ?_).1 (Json.object.inj h))
  obtain ⟨hname, hentry⟩ := Prod.mk.inj heq
  exact Prod.ext hname (Entry.json_injective hentry)

namespace Regression

theorem Verdict.Finite.fields {v : Verdict} (h : v.Finite) : (Json.object v.fields).Finite := by
  refine Json.finite_cons (.text _) ?_
  cases v with
  | adopted => exact Json.finite_object_nil
  | improved e | tolerated e | regressed e =>
    exact Json.finite_cons (h e rfl).json Json.finite_object_nil

/-- The name of a verdict tells its kind, also of the two that have fields of one name. -/
theorem Verdict.fields_injective {v v' : Verdict} (h : v.fields = v'.fields) : v = v' := by
  cases v <;> cases v' <;> simp [fields, name] at h <;>
    first | rfl | exact congrArg _ (Entry.json_injective h)

theorem Check.Finite.json {c : Check} (h : c.Finite) : c.json.Finite :=
  Json.finite_cons (.text _)
    (Json.finite_cons h.checked.json h.verdict.fields)

theorem Check.json_injective {c c' : Check} (h : c.json = c'.json) : c = c' := by
  cases c
  cases c'
  simp only [json, Json.object.injEq, List.cons.injEq, Prod.mk.injEq, Json.text.injEq, true_and] at h
  obtain ⟨hname, hchecked, hverdict⟩ := h
  rw [hname, Entry.json_injective hchecked, Verdict.fields_injective hverdict]

theorem Report.Finite.json {r : Report} (h : r.Finite) : r.json.Finite := by
  have hchecks : (Json.list (r.checks.map Check.json)).Finite := by
    refine .list _ fun j hj => ?_
    obtain ⟨c, hc, rfl⟩ := List.mem_map.1 hj
    exact (h.checks c hc).json
  exact Json.finite_cons hchecks (Json.finite_cons (.count _)
    (Json.finite_cons h.baseline.json (Json.finite_cons
      (Json.finite_cons (.number _ h.tolerance) Json.finite_object_nil) Json.finite_object_nil)))

theorem Report.json_injective {r r' : Report} (h : r.json = r'.json) : r = r' := by
  obtain ⟨checks, skipped, baseline, ⟨tolerance⟩⟩ := r
  obtain ⟨checks', skipped', baseline', ⟨tolerance'⟩⟩ := r'
  simp only [json, RegressionSettings.json, Json.object.injEq, List.cons.injEq, Prod.mk.injEq,
    Json.list.injEq, Json.count.injEq, Json.number.injEq, true_and, and_true] at h
  obtain ⟨hchecks, hskipped, hbaseline, htolerance⟩ := h
  rw [(List.map_inj_right fun _ _ => Check.json_injective).1 hchecks, hskipped,
    Baseline.json_injective hbaseline, htolerance]

end Regression

/-! ## Their texts -/

/-- The text of a document reads as that document, with the line end behind it. -/
theorem Json.read?_report (j : Json) : Json.Written.read? j.report = some j.written := by
  have hread := Json.Written.read?_spaced .lines j (w := ['\n']) (by
    intro c hc
    rw [List.mem_singleton.1 hc]
    rfl)
  rw [← Json.prettyChars_eq] at hread
  have hreport : j.report = String.ofList (j.prettyChars 0 ++ ['\n']) := by
    simp [Json.report, Json.pretty, String.ofList_append]
  rw [hreport, hread]

theorem Json.written_of_report {j j' : Json} (h : j.report = j'.report) :
    j.written = j'.written := by
  have hread := congrArg Json.Written.read? h
  rw [Json.read?_report, Json.read?_report] at hread
  exact Option.some.inj hread

theorem Json.of_written_object {name name' : String} {value value' : Json}
    {fields fields' : List (String × Json)}
    (h : (Json.object ((name, value) :: fields)).written =
      (Json.object ((name', value') :: fields')).written) :
    value.written = value'.written ∧
      (Json.object fields).written = (Json.object fields').written := by
  obtain ⟨hfirst, hrest⟩ := List.cons.inj (Json.Written.object.inj h)
  exact ⟨(Prod.mk.inj hfirst).2, congrArg Json.Written.object hrest⟩

theorem Json.of_written_count {n n' : Nat} (h : (Json.count n).written = (Json.count n').written) :
    n = n' := Json.NumberText.ofCount_injective (Json.Written.number.inj h)

/-- Counts are told apart by what is read, whatever stands beside them. -/
theorem Shortfall.eq_of_written {s s' : Shortfall} (h : s.json.written = s'.json.written) :
    s = s' := by
  obtain ⟨name, retained, total⟩ := s
  obtain ⟨name', retained', total'⟩ := s'
  obtain ⟨hname, h⟩ := Json.of_written_object h
  obtain ⟨hretained, h⟩ := Json.of_written_object h
  obtain ⟨htotal, -⟩ := Json.of_written_object h
  cases hname
  cases Json.of_written_count hretained
  cases Json.of_written_count htotal
  rfl

theorem Convergence.Verdict.eq_of_written {v v' : Verdict} (h : v.Finite) (h' : v'.Finite)
    (heq : v.json.written = v'.json.written) : v = v' := by
  cases v with
  | converged b =>
    cases v' with
    | converged b' =>
      obtain ⟨-, hrest⟩ := Json.of_written_object heq
      obtain ⟨hdetail, -⟩ := Json.of_written_object hrest
      have hjson := Json.eq_of_written b.json (Baseline.Finite.json h) (Baseline.Finite.json h') hdetail
      rw [Baseline.json_injective hjson]
    | shortfall s' =>
      obtain ⟨hstatus, -⟩ := Json.of_written_object heq
      exact absurd (Option.some.inj (Json.Written.text.inj hstatus)) (by decide)
  | shortfall s =>
    cases v' with
    | converged b' =>
      obtain ⟨hstatus, -⟩ := Json.of_written_object heq
      exact absurd (Option.some.inj (Json.Written.text.inj hstatus)) (by decide)
    | shortfall s' =>
      obtain ⟨-, hrest⟩ := Json.of_written_object heq
      obtain ⟨hdetail, -⟩ := Json.of_written_object hrest
      rw [Shortfall.eq_of_written hdetail]

/-- The text of a document is that document and nothing else: it reads as what was written. So two
reports of a check in which all numbers are finite have one text only if they are one report, and so
have two verdicts on convergence; the numbers of a shortfall are counts, which are always finite. -/
theorem reports_told_apart :
    (∀ (r r' : Regression.Report), r.Finite → r'.Finite →
      (r.render .json = r'.render .json ↔ r = r')) ∧
    (∀ (v v' : Convergence.Verdict), v.Finite → v'.Finite →
      (v.render .json = v'.render .json ↔ v = v')) ∧
    ∀ j : Json, Json.Written.read? j.report = some j.written := by
  refine ⟨fun r r' hr hr' => ⟨fun h => ?_, fun h => h ▸ rfl⟩,
    fun v v' hv hv' => ⟨fun h => ?_, fun h => h ▸ rfl⟩, Json.read?_report⟩
  · exact Regression.Report.json_injective
      (Json.eq_of_written r.json hr.json hr'.json (Json.written_of_report h))
  · exact Convergence.Verdict.eq_of_written hv hv' (Json.written_of_report h)

/-- Two verdicts with fields of one name, two zeros, and two shortfalls without samples, under names
that hold a quote, a backslash and a line feed. -/
theorem odd_reports_told_apart :
    let zero (neg : Bool) : Entry := ⟨.zero neg, 0⟩
    let report (verdict : Regression.Verdict) : Regression.Report :=
      ⟨[⟨"a\"\\\n", zero false, verdict⟩], 2, .ofList [("é", zero true)], ⟨0⟩⟩
    let short (n : Nat) : Convergence.Verdict := .shortfall ⟨"\n", n, 0⟩
    (report (.tolerated (zero false))).render .json ≠
        (report (.regressed (zero false))).render .json ∧
      (report (.tolerated (zero false))).render .json ≠
        (report (.tolerated (zero true))).render .json ∧
      (short 0).render .json ≠ (short 1).render .json := by
  intro zero report short
  have hzero : ∀ neg, (zero neg).Finite := fun _ => ⟨rfl, rfl⟩
  have hreport : ∀ verdict : Regression.Verdict, verdict.Finite → (report verdict).Finite := by
    intro verdict hverdict
    refine ⟨fun c hc => ?_, fun e he => ?_, rfl⟩
    · cases List.mem_singleton.1 hc
      exact ⟨hzero false, hverdict⟩
    · cases List.mem_singleton.1 he
      exact hzero true
  have htolerated : ∀ neg, (report (.tolerated (zero neg))).Finite := fun neg =>
    hreport _ fun e he => by cases he; exact hzero neg
  have hregressed : (report (.regressed (zero false))).Finite :=
    hreport _ fun e he => by cases he; exact hzero false
  obtain ⟨hreports, hverdicts, -⟩ := reports_told_apart
  refine ⟨fun h => ?_, fun h => ?_, fun h => ?_⟩
  · exact absurd ((hreports _ _ (htolerated false) hregressed).1 h) (by decide +kernel)
  · exact absurd ((hreports _ _ (htolerated false) (htolerated true)).1 h) (by decide +kernel)
  · have hshort := (hverdicts (short 0) (short 1) trivial trivial).1 h
    cases hshort

end Ratchet
