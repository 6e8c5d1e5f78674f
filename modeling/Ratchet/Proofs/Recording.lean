import Ratchet.Proofs.Tally

/-!
# What a sequence of calls leaves in a tally

A tally is filled by calls: single values, and whole streams, of which the lines up to the first
that is no observation stay recorded. `Recording.observations` says what one call contributes, and
whatever the calls were, the tally they leave is that of the observations in order
(`foldl_apply`). The samples of a metric are then its values, folded one after the other:
`moments_ofValues` and `values_ofValues`. `Tally.Holds` is the invariant that comes of it, and
`recorded_in_order` carries it over one more stream.
-/

namespace Ratchet

/-- A call that records values. -/
inductive Recording where
  | observe (name : String) (x : Binary64)
  | read (stream : Bytes)

namespace Recording

/-- The tally as a call leaves it, also one that fails half-way. -/
def apply (t : Tally) : Recording → Tally
  | observe name x => t.observe name x
  | read stream => (t.readStream stream).1

/-- The observations of lines up to the first that is none. -/
def leading : List Bytes → List Observation
  | [] => []
  | line :: rest =>
    match Observation.ofBytes? line with
    | some o => o :: leading rest
    | none => []

/-- What a call contributes. -/
def observations : Recording → List Observation
  | observe name x => [⟨name, x⟩]
  | read stream => leading (Tally.streamLines stream)

theorem leading_append {front : List Bytes} {obs : List Observation}
    (h : front.mapM Observation.ofBytes? = some obs) (rest : List Bytes) :
    leading (front ++ rest) = obs ++ leading rest := by
  induction front generalizing obs with
  | nil => cases h; rfl
  | cons line front ih =>
    obtain ⟨o, later, ho, hlater, rfl⟩ := mapM_cons_eq_some.1 h
    rw [List.cons_append, leading, ho]
    dsimp only
    rw [ih hlater, List.cons_append]

theorem leading_of_reading {before : Nat} {lines : List Bytes} {obs : List Observation}
    {outcome : Except Fault Nat} (h : Tally.Reading before lines obs outcome) :
    leading lines = obs := by
  cases h with
  | complete hobs =>
    have happend := leading_append hobs []
    rwa [List.append_nil, leading, List.append_nil] at happend
  | stopped hobs hrefused =>
    rw [leading_append hobs, leading, hrefused.ofBytes?_eq_none, List.append_nil]

theorem readLines_fst (lines : List Bytes) (t : Tally) (before : Nat) :
    (t.readLines before lines).1 = (leading lines).foldl Tally.record t := by
  obtain ⟨obs, outcome, h⟩ := Tally.exists_reading lines before
  rw [Tally.readLines_of_reading h, leading_of_reading h]

theorem apply_eq_foldl (t : Tally) (call : Recording) :
    apply t call = call.observations.foldl Tally.record t := by
  cases call with
  | observe name x => rfl
  | read stream => exact readLines_fst (Tally.streamLines stream) t 0

theorem foldl_apply (calls : List Recording) :
    calls.foldl apply .empty = Tally.ofObservations (calls.flatMap observations) := by
  unfold Tally.ofObservations
  generalize (NameMap.empty : Tally) = t
  induction calls generalizing t with
  | nil => rfl
  | cons call rest ih =>
    rw [List.foldl_cons, List.flatMap_cons, List.foldl_append, apply_eq_foldl]
    exact ih _

end Recording

namespace Samples

variable (xs : List Binary64)

theorem moments_foldl_push (s : Samples) :
    (xs.foldl push s).moments = xs.foldl Moments.push s.moments := by
  induction xs generalizing s with
  | nil => rfl
  | cons x rest ih => exact ih (s.push x)

theorem toList_values_foldl_push (s : Samples) :
    (xs.foldl push s).values.toList = s.values.toList ++ xs := by
  induction xs generalizing s with
  | nil => rw [List.foldl_nil, List.append_nil]
  | cons x rest ih =>
    rw [List.foldl_cons, ih, push, Array.toList_push, List.append_assoc, List.singleton_append]

theorem moments_ofValues : (ofValues xs).moments = Moments.ofList xs := moments_foldl_push xs .empty

theorem values_ofValues : (ofValues xs).values = xs.toArray := by
  apply Array.toList_inj.1
  exact toList_values_foldl_push xs .empty

end Samples

theorem Moments.count_foldl_push (xs : List Binary64) (m : Moments Binary64) :
    (xs.foldl push m).count = m.count + xs.length := by
  induction xs generalizing m with
  | nil => rfl
  | cons x rest ih =>
    rw [List.foldl_cons, ih, count_push, List.length_cons]
    omega

theorem Moments.count_ofList (xs : List Binary64) : (ofList xs).count = xs.length := by
  rw [ofList, count_foldl_push]
  exact Nat.zero_add xs.length

theorem Moments.count_ofList_ne_zero {xs : List Binary64} (h : xs ≠ []) :
    (ofList xs).count ≠ 0 := by
  rw [count_ofList]
  exact Nat.ne_of_gt (List.length_pos_iff.2 h)

/-- A tally is that of these observations: a metric for each name among them, in ascending order,
with its values as they arrived and the statistics folded from these. -/
structure Tally.Holds (t : Tally) (obs : List Observation) : Prop where
  ascending : t.names.Pairwise (· < ·)
  names : ∀ name, name ∈ t.names ↔ ∃ o ∈ obs, o.name = name
  values : ∀ name s, (name, s) ∈ t.entries → s.values.toList = valuesOf name obs
  moments : ∀ name s, (name, s) ∈ t.entries → s.moments = s.values.toList.foldl Moments.push ∅
  count : ∀ name s, (name, s) ∈ t.entries → s.moments.count = s.values.size ∧ 1 ≤ s.moments.count

theorem Tally.holds_ofObservations (obs : List Observation) : (ofObservations obs).Holds obs where
  ascending := List.pairwise_map.2 (ofObservations obs).ascending
  names name := mem_names_ofObservations_iff.trans valuesOf_ne_nil_iff
  values name s h := by
    obtain ⟨-, rfl⟩ := mem_entries_ofObservations_iff.1 h
    rw [Samples.values_ofValues]
  moments name s h := by
    obtain ⟨-, rfl⟩ := mem_entries_ofObservations_iff.1 h
    rw [Samples.moments_ofValues, Samples.values_ofValues]
    rfl
  count name s h := by
    obtain ⟨hname, rfl⟩ := mem_entries_ofObservations_iff.1 h
    have hpos : 0 < (valuesOf name obs).length :=
      List.length_pos_iff.2 (valuesOf_ne_nil_iff.2 hname)
    rw [Samples.moments_ofValues, Samples.values_ofValues, Moments.count_ofList]
    exact ⟨rfl, hpos⟩

/-- Whatever calls filled a tally, failing ones among them, it holds what they recorded. A stream
that is read next is cut into lines at its line feeds. It adds the observations of all of them, or
of those in front of the first that is none, which ends the reading with its fault under its number
in this stream; in either case the tally holds these behind the old ones. -/
theorem Recording.recorded_in_order (calls : List Recording) :
    let t := calls.foldl apply .empty
    let old := calls.flatMap observations
    t.Holds old ∧ ∀ stream, ∃ lines new outcome,
      Text.LinesOf 10 13 stream lines ∧ Tally.Reading 0 lines new outcome ∧
      (read stream).observations = new ∧
      t.readStream stream = (new.foldl Tally.record t, outcome) ∧
      (t.readStream stream).1.Holds (old ++ new) := by
  intro t old
  have ht : t = Tally.ofObservations old := foldl_apply calls
  refine ⟨ht ▸ Tally.holds_ofObservations old, fun stream => ?_⟩
  obtain ⟨new, outcome, hreading⟩ := Tally.exists_reading (Tally.streamLines stream) 0
  have hread : t.readStream stream = (new.foldl Tally.record t, outcome) :=
    Tally.readLines_of_reading hreading t
  refine ⟨_, new, outcome, Text.linesOf_iff.2 rfl, hreading, leading_of_reading hreading,
    hread, ?_⟩
  have hstate : (t.readStream stream).1 = Tally.ofObservations (old ++ new) := by
    rw [hread, ht, Tally.ofObservations, Tally.ofObservations, List.foldl_append]
  exact hstate ▸ Tally.holds_ofObservations _

end Ratchet
