/-!
# Maps from names

A `NameMap` holds its entries in strictly ascending order of their names, by code points, each name
once. So two maps with the same look-ups are equal, and every walk over a map goes in name order
whatever the order of the insertions was. `get?_update` says what an update does to each look-up.
-/

namespace Ratchet

theorem name_lt_trans {a b c : String} (h : a < b) (h' : b < c) : a < c :=
  List.lt_trans h h'

theorem name_lt_irrefl (a : String) : ¬ a < a := List.lt_irrefl a.toList

theorem name_lt_of_not_lt {a b : String} (h : ¬ a < b) (ne : a ≠ b) : b < a := by
  rw [String.lt_iff] at h ⊢
  refine Decidable.byContradiction fun h' => ne ?_
  exact String.toList_inj.1 (List.le_antisymm (List.not_lt.1 h') (List.not_lt.1 h))

/-! ## Maps -/

/-- Entries under distinct names, in ascending name order. -/
structure NameMap (α : Type) where
  entries : List (String × α)
  ascending : entries.Pairwise fun a b => a.1 < b.1

namespace NameMap

variable {α : Type}

theorem ext {m m' : NameMap α} (h : m.entries = m'.entries) : m = m' := by
  cases m; cases m'; cases h; rfl

instance [DecidableEq α] : DecidableEq (NameMap α) := fun m m' =>
  decidable_of_iff (m.entries = m'.entries) ⟨ext, fun h => h ▸ rfl⟩

def empty : NameMap α := ⟨[], .nil⟩

instance : EmptyCollection (NameMap α) := ⟨empty⟩

instance : Inhabited (NameMap α) := ⟨empty⟩

def size (m : NameMap α) : Nat := m.entries.length

def isEmpty (m : NameMap α) : Bool := m.entries.isEmpty

def names (m : NameMap α) : List String := m.entries.map Prod.fst

def find? (name : String) : List (String × α) → Option α
  | [] => none
  | (n, v) :: rest => if n = name then some v else find? name rest

def get? (m : NameMap α) (name : String) : Option α := find? name m.entries

/-- Replaces or adds the entry of `name`, keeping the order. -/
def updateEntries (name : String) (f : Option α → α) :
    List (String × α) → List (String × α)
  | [] => [(name, f none)]
  | (n, v) :: rest =>
    if name = n then (n, f (some v)) :: rest
    else if name < n then (name, f none) :: (n, v) :: rest
    else (n, v) :: updateEntries name f rest

theorem mem_updateEntries {name : String} {f : Option α → α} {entries : List (String × α)}
    {e : String × α} (h : e ∈ updateEntries name f entries) :
    e.1 = name ∨ ∃ e' ∈ entries, e'.1 = e.1 := by
  induction entries with
  | nil => simp_all [updateEntries]
  | cons p rest ih =>
    obtain ⟨n, v⟩ := p
    unfold updateEntries at h
    split at h
    · next hn =>
      rcases List.mem_cons.1 h with rfl | h
      · exact .inl hn.symm
      · exact .inr ⟨e, List.mem_cons_of_mem _ h, rfl⟩
    · split at h
      · rcases List.mem_cons.1 h with rfl | h
        · exact .inl rfl
        · exact .inr ⟨e, h, rfl⟩
      · rcases List.mem_cons.1 h with rfl | h
        · exact .inr ⟨_, List.mem_cons_self, rfl⟩
        · rcases ih h with h | ⟨e', he', h⟩
          · exact .inl h
          · exact .inr ⟨e', List.mem_cons_of_mem _ he', h⟩

theorem ascending_updateEntries (name : String) (f : Option α → α) {entries : List (String × α)}
    (h : entries.Pairwise fun a b => a.1 < b.1) :
    (updateEntries name f entries).Pairwise fun a b => a.1 < b.1 := by
  induction entries with
  | nil => simp [updateEntries]
  | cons p rest ih =>
    obtain ⟨n, v⟩ := p
    obtain ⟨hhead, hrest⟩ := List.pairwise_cons.1 h
    unfold updateEntries
    split
    · exact List.pairwise_cons.2 ⟨hhead, hrest⟩
    · next hne =>
      split
      · next hlt =>
        refine List.pairwise_cons.2 ⟨fun e he => ?_, h⟩
        rcases List.mem_cons.1 he with rfl | he
        · exact hlt
        · exact name_lt_trans hlt (hhead e he)
      · next hnlt =>
        refine List.pairwise_cons.2 ⟨fun e he => ?_, ih hrest⟩
        rcases mem_updateEntries he with heq | ⟨e', he', heq⟩
        · exact heq ▸ name_lt_of_not_lt hnlt hne
        · exact heq ▸ hhead e' he'

/-- Replaces the value under `name` by what `f` makes of it. -/
def update (m : NameMap α) (name : String) (f : Option α → α) : NameMap α :=
  ⟨updateEntries name f m.entries, ascending_updateEntries name f m.ascending⟩

def insert (m : NameMap α) (name : String) (value : α) : NameMap α :=
  m.update name fun _ => value

/-- Inserts in turn, so that the last of several values under a name stays. -/
def ofList (entries : List (String × α)) : NameMap α :=
  entries.foldl (fun m e => m.insert e.1 e.2) empty

theorem find?_eq_none_of_lt {name : String} {entries : List (String × α)}
    (h : ∀ e ∈ entries, name < e.1) : find? name entries = none := by
  induction entries with
  | nil => rfl
  | cons p rest ih =>
    have hp := h p List.mem_cons_self
    have hne : p.1 ≠ name := fun e => name_lt_irrefl _ (e ▸ hp)
    rw [find?, if_neg hne, ih fun e he => h e (List.mem_cons_of_mem _ he)]

theorem find?_updateEntries (name : String) (f : Option α → α) {entries : List (String × α)}
    (h : entries.Pairwise fun a b => a.1 < b.1) (other : String) :
    find? other (updateEntries name f entries) =
      if name = other then some (f (find? name entries)) else find? other entries := by
  induction entries with
  | nil => simp [updateEntries, find?]
  | cons p rest ih =>
    obtain ⟨n, v⟩ := p
    obtain ⟨hhead, hrest⟩ := List.pairwise_cons.1 h
    unfold updateEntries
    split
    · next hn => subst hn; by_cases ho : name = other <;> simp [find?, ho]
    · next hne =>
      split
      · next hlt =>
        have hnone : find? name ((n, v) :: rest) = none := by
          refine find?_eq_none_of_lt fun e he => ?_
          rcases List.mem_cons.1 he with rfl | he
          · exact hlt
          · exact name_lt_trans hlt (hhead e he)
        rw [hnone]
        by_cases ho : name = other <;> simp [find?, ho]
      · rw [find?, ih hrest, find?, find?]
        by_cases ho : name = other
        · subst ho; simp [Ne.symm hne]
        · simp [ho]

@[simp] theorem get?_empty (name : String) : (empty : NameMap α).get? name = none := rfl

theorem get?_update (m : NameMap α) (name : String) (f : Option α → α) (other : String) :
    (m.update name f).get? other =
      if name = other then some (f (m.get? name)) else m.get? other :=
  find?_updateEntries name f m.ascending other

theorem get?_insert (m : NameMap α) (name : String) (value : α) (other : String) :
    (m.insert name value).get? other = if name = other then some value else m.get? other :=
  get?_update m name _ other

end NameMap

end Ratchet
