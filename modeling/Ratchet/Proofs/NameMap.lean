import Mathlib.Data.List.Induction
import Ratchet.NameMap

/-!
# What look-ups say about a map

A look-up finds exactly the entry that is there (`get?_eq_some_iff`), so two maps with the same
look-ups are one map (`ext_get?`), and inserting the entries of a map one after the other builds the
map again (`ofList_entries`). Of several entries that are inserted under a name the last one stays
(`get?_ofList`).
-/

namespace Ratchet.NameMap

variable {α : Type} {name : String} {v : α}

theorem find?_eq_some_iff {entries : List (String × α)}
    (h : entries.Pairwise fun a b => a.1 < b.1) :
    find? name entries = some v ↔ (name, v) ∈ entries := by
  induction entries with
  | nil => simp [find?]
  | cons e rest ih =>
    obtain ⟨n, w⟩ := e
    obtain ⟨hhead, hrest⟩ := List.pairwise_cons.1 h
    rw [find?, List.mem_cons]
    split
    · next hn =>
      subst hn
      have hnot : (n, v) ∉ rest := fun hm => name_lt_irrefl n (hhead (n, v) hm)
      simp [hnot, eq_comm]
    · next hn => rw [ih hrest]; simp [Ne.symm hn]

theorem get?_eq_some_iff {m : NameMap α} : m.get? name = some v ↔ (name, v) ∈ m.entries :=
  find?_eq_some_iff m.ascending

theorem get?_eq_none_iff {m : NameMap α} : m.get? name = none ↔ name ∉ m.names := by
  rw [Option.eq_none_iff_forall_ne_some]
  simp [get?_eq_some_iff, names]

theorem isSome_get?_iff {m : NameMap α} : (m.get? name).isSome ↔ name ∈ m.names := by
  rw [Option.isSome_iff_ne_none, ne_eq, get?_eq_none_iff, Decidable.not_not]

theorem isEmpty_iff {m : NameMap α} : m.isEmpty ↔ ∀ name, m.get? name = none := by
  rw [isEmpty, List.isEmpty_iff]
  constructor
  · intro h name
    rw [get?, h, find?]
  · intro h
    refine List.eq_nil_iff_forall_not_mem.2 fun e he => ?_
    have hsome : m.get? e.1 = some e.2 := get?_eq_some_iff.2 he
    rw [h] at hsome
    cases hsome

theorem nodup_of_ascending {entries : List (String × α)}
    (h : entries.Pairwise fun a b => a.1 < b.1) : entries.Nodup := by
  refine h.imp fun {a b} hlt e => ?_
  subst e
  exact name_lt_irrefl _ hlt

theorem mem_front_of_lt {m : NameMap α} {front back : List (String × α)} {name' : String} {v' : α}
    (hentries : m.entries = front ++ (name, v) :: back) (hmem : (name', v') ∈ m.entries)
    (hlt : name' < name) : (name', v') ∈ front := by
  have hascending := m.ascending
  rw [hentries] at hmem hascending
  rcases List.mem_append.1 hmem with hfront | hback
  · exact hfront
  · rcases List.mem_cons.1 hback with heq | hback
    · rw [(Prod.mk.inj heq).1] at hlt
      exact absurd hlt (name_lt_irrefl name)
    · have hlater := (List.pairwise_cons.1 (List.pairwise_append.1 hascending).2.1).1 _ hback
      exact absurd (name_lt_trans hlt hlater) (name_lt_irrefl name')

theorem ext_get? {m m' : NameMap α} (h : ∀ name, m.get? name = m'.get? name) : m = m' := by
  have hmem : ∀ e, e ∈ m.entries ↔ e ∈ m'.entries := fun e => by
    rw [← get?_eq_some_iff, ← get?_eq_some_iff, h]
  have hperm := (List.perm_ext_iff_of_nodup (nodup_of_ascending m.ascending)
    (nodup_of_ascending m'.ascending)).2 hmem
  refine ext (hperm.eq_of_pairwise (fun a b _ _ hab hba => ?_) m.ascending m'.ascending)
  exact absurd (name_lt_trans hab hba) (name_lt_irrefl _)

/-- Inserting ascending entries one after the other: each is found, and what was there before is
found under every other name. -/
theorem get?_foldl_insert {entries : List (String × α)}
    (h : entries.Pairwise fun a b => a.1 < b.1) (m : NameMap α) (name : String) :
    (entries.foldl (fun m e => m.insert e.1 e.2) m).get? name =
      (find? name entries).or (m.get? name) := by
  induction entries generalizing m with
  | nil => rfl
  | cons e rest ih =>
    obtain ⟨hhead, hrest⟩ := List.pairwise_cons.1 h
    rw [List.foldl_cons, ih hrest, get?_insert, find?]
    split
    · next hn => subst hn; rw [find?_eq_none_of_lt hhead]; rfl
    · rfl

theorem ofList_concat (entries : List (String × α)) (e : String × α) :
    ofList (entries ++ [e]) = (ofList entries).insert e.1 e.2 := List.foldl_append

/-- Of several entries under a name the last one stays. -/
theorem get?_ofList (entries : List (String × α)) (name : String) :
    (ofList entries).get? name = entries.reverse.lookup name := by
  induction entries using List.reverseRecOn with
  | nil => rfl
  | append_singleton entries e ih =>
    rw [ofList_concat, get?_insert, ih, List.reverse_append, List.reverse_singleton,
      List.singleton_append, List.lookup_cons]
    by_cases he : e.1 = name
    · rw [if_pos he, beq_iff_eq.2 he.symm]
    · rw [if_neg he, beq_false_of_ne (Ne.symm he)]

theorem isSome_get?_ofList {entries : List (String × α)} :
    ((ofList entries).get? name).isSome ↔ name ∈ entries.map Prod.fst := by
  rw [get?_ofList, List.lookup_isSome_iff, List.mem_map]
  simp only [List.mem_reverse, beq_iff_eq, @eq_comm _ name]

theorem mem_of_mem_names_ofList {entries : List (String × α)} {name : String}
    (h : name ∈ (ofList entries).names) : ∃ e ∈ entries, e.1 = name :=
  List.mem_map.1 (isSome_get?_ofList.1 (isSome_get?_iff.2 h))

theorem ofList_entries (m : NameMap α) : ofList m.entries = m :=
  ext_get? fun name => by
    rw [ofList, get?_foldl_insert m.ascending, get?_empty, Option.or_none]
    rfl

end Ratchet.NameMap
