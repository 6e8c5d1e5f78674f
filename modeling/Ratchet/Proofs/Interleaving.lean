import Ratchet.Proofs.GateStep

/-!
# The order of metrics in a stream

Observations tell the same series if every metric has the same values in the same order in both,
however its values stand between those of other metrics (`SameSeries`). They then leave the same
tally (`ofObservations_eq_of_sameSeries`): a tally is a map, and the samples of a metric come of its
values alone. The convergence gate sees nothing of a stream but its tally.
-/

namespace Ratchet

open Tally (observations? ofObservations)

/-- Every metric has the same values in the same order. -/
def SameSeries (obs obs' : List Observation) : Prop :=
  ∀ name, valuesOf name obs = valuesOf name obs'

theorem SameSeries.swap {o o' : Observation} (h : o.name ≠ o'.name) (obs : List Observation) :
    SameSeries (o :: o' :: obs) (o' :: o :: obs) := by
  intro name
  simp only [valuesOf_cons]
  by_cases ho : o.name = name
  · have ho' : o'.name ≠ name := fun e => h (ho.trans e.symm)
    simp only [if_pos ho, if_neg ho']
  · simp only [if_neg ho]

theorem ofObservations_eq_of_sameSeries {obs obs' : List Observation} (h : SameSeries obs obs') :
    ofObservations obs = ofObservations obs' := by
  refine NameMap.ext_get? fun name => ?_
  rw [Tally.get?_ofObservations, Tally.get?_ofObservations, h name]

namespace Gate

variable {stream stream' : Bytes} {obs obs' : List Observation}

theorem measure_eq_of_sameSeries (hobs : observations? stream = some obs)
    (hobs' : observations? stream' = some obs') (h : SameSeries obs obs')
    (settings : ConvergenceSettings) : measure stream settings = measure stream' settings := by
  rw [measure_of_observations hobs, measure_of_observations hobs',
    ofObservations_eq_of_sameSeries h]

/-- Streams that tell the same series are the same to the convergence gate. It runs to the same end
on both: the same verdict or the same fault, the same notices and the same tree. And wherever two
runs on them end with a baseline, in trees and under paths of their own, it is one baseline and both
files hold its text, byte by byte. -/
theorem converge_eq_of_sameSeries (hobs : observations? stream = some obs)
    (hobs' : observations? stream' = some obs') (h : SameSeries obs obs')
    (settings : ConvergenceSettings) :
    (∀ t output, converge t stream output settings = converge t stream' output settings) ∧
      ∀ t t' output output' b b',
        (converge t stream output settings).outcome = .ok (.converged b) →
        (converge t' stream' output' settings).outcome = .ok (.converged b') →
        b = b' ∧ ∃ content,
          (converge t stream output settings).tree.read output = .ok content ∧
          (converge t' stream' output' settings).tree.read output' = .ok content := by
  have hmeasure := measure_eq_of_sameSeries hobs hobs' h settings
  refine ⟨fun t output => ?_, fun t t' output output' b b' hb hb' => ?_⟩
  · rw [converge, converge, hmeasure]
  · have hwritten := converge_eq_converged_iff.1 hb
    have hwritten' := converge_eq_converged_iff.1 hb'
    have hsame : b = b' := by
      have hboth := hwritten.measured.symm.trans (hmeasure.trans hwritten'.measured)
      cases hboth
      rfl
    subst hsame
    obtain ⟨text, htext, hread⟩ := Baseline.read_of_save hwritten.saved
    obtain ⟨text', htext', hread'⟩ := Baseline.read_of_save hwritten'.saved
    cases htext.symm.trans htext'
    exact ⟨rfl, .ofText text, hread, hread'⟩

/-- Two metrics, the second of which is written first or between the values of the other. -/
theorem converge_two_interleavings :
    let stream : Bytes := .ofText "b:7\na:1\na:3\n"
    let stream' : Bytes := .ofText "a:1\r\nb: 7.0\na:3"
    let settings : ConvergenceSettings := ⟨.ofNat 3, .ofNat 1⟩
    let t := FileTree.bare ["w"]
    ∃ b content, (converge t stream "x.tsv" settings).outcome = .ok (.converged b) ∧
      (converge t stream' "y.tsv" settings).outcome = .ok (.converged b) ∧
      (converge t stream "x.tsv" settings).tree.read "x.tsv" = .ok content ∧
      (converge t stream' "y.tsv" settings).tree.read "y.tsv" = .ok content := by
  intro stream stream' settings t
  have hobs : observations? stream =
      some [⟨"b", .ofNat 7⟩, ⟨"a", .ofNat 1⟩, ⟨"a", .ofNat 3⟩] := by decide +kernel
  have hobs' : observations? stream' =
      some [⟨"a", .ofNat 1⟩, ⟨"b", .ofNat 7⟩, ⟨"a", .ofNat 3⟩] := by decide +kernel
  have hseries : SameSeries [⟨"b", .ofNat 7⟩, ⟨"a", .ofNat 1⟩, ⟨"a", .ofNat 3⟩]
      [⟨"a", .ofNat 1⟩, ⟨"b", .ofNat 7⟩, ⟨"a", .ofNat 3⟩] := .swap (by decide) _
  have hconverged : ∀ output, output ∈ ["x.tsv", "y.tsv"] →
      (converge t stream output settings).outcome.toOption.map
        Convergence.Verdict.isConverged = some true := by
    decide +kernel
  obtain ⟨hsame, hfiles⟩ := converge_eq_of_sameSeries hobs hobs' hseries settings
  obtain ⟨b, hb⟩ := exists_converged (hconverged "x.tsv" (by decide))
  obtain ⟨b', hb'⟩ := exists_converged (hconverged "y.tsv" (by decide))
  rw [hsame] at hb'
  obtain ⟨rfl, content, hread, hread'⟩ := hfiles t t "x.tsv" "y.tsv" b b' hb hb'
  exact ⟨b, content, hb, hb', hread, hread'⟩

end Gate

end Ratchet
