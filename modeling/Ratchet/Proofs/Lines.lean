import Ratchet.Text.Lines

/-!
# Pieces and lines of a text

No piece holds the separator, and pieces that hold none come back out of a text that ends each with
one (`pieces_flatMap`). For lines this needs more: a carriage return at the end of one would be
taken for a part of the line end (`lines_flatMap`). Only the empty text has no lines. `LinesOf` says
how a text is cut into lines, from line feed to line feed; there is one way to do it (`linesOf_iff`).
-/

namespace Ratchet.Text

variable {α : Type} [DecidableEq α] {sep feed ret : α}

theorem pieces_cons (c : α) (s : List α) :
    pieces sep (c :: s) =
      if c = sep then [] :: pieces sep s
      else (c :: (cut sep s).1) :: (cut sep s).2 := by
  unfold pieces
  rw [cut]
  by_cases h : c = sep <;> simp [h]

theorem length_pieces (s : List α) : (pieces sep s).length = s.count sep + 1 := by
  induction s with
  | nil => rfl
  | cons c rest ih =>
    rw [pieces_cons, List.count_cons]
    split
    · next hc => simp [ih, hc]
    · next hc =>
      rw [pieces, List.length_cons] at ih
      simp [ih, hc]

theorem count_of_pieces {s : List α} {ps : List (List α)} (h : pieces sep s = ps) :
    s.count sep + 1 = ps.length := by
  rw [← h, length_pieces]

theorem not_mem_of_mem_pieces {s p : List α} (h : p ∈ pieces sep s) : sep ∉ p := by
  induction s generalizing p with
  | nil =>
    rw [pieces_nil, List.mem_singleton] at h
    simp [h]
  | cons c rest ih =>
    rw [pieces_cons] at h
    split at h
    · rcases List.mem_cons.1 h with rfl | h
      · exact List.not_mem_nil
      · exact ih h
    · next hc =>
      rcases List.mem_cons.1 h with rfl | h
      · have hfirst := ih (p := (cut sep rest).1) List.mem_cons_self
        simpa [Ne.symm hc] using hfirst
      · exact ih (List.mem_cons_of_mem _ h)

theorem mem_of_mem_pieces {s p : List α} (h : p ∈ pieces sep s) {c : α} (hc : c ∈ p) :
    c ∈ s := by
  induction s generalizing p with
  | nil =>
    rw [pieces_nil, List.mem_singleton] at h
    rwa [h] at hc
  | cons d rest ih =>
    rw [pieces_cons] at h
    split at h
    · rcases List.mem_cons.1 h with rfl | h
      · cases hc
      · exact List.mem_cons_of_mem _ (ih h hc)
    · rcases List.mem_cons.1 h with rfl | h
      · rcases List.mem_cons.1 hc with rfl | hc
        · exact List.mem_cons_self
        · exact List.mem_cons_of_mem _ (ih (p := (cut sep rest).1) List.mem_cons_self hc)
      · exact List.mem_cons_of_mem _ (ih (List.mem_cons_of_mem _ h) hc)

/-- Pieces without separators, each ended by one, come back, with what follows the last. -/
theorem pieces_flatMap {ps : List (List α)} {last : List α} (hps : ∀ p ∈ ps, sep ∉ p)
    (hlast : sep ∉ last) : pieces sep (ps.flatMap (· ++ [sep]) ++ last) = ps ++ [last] := by
  induction ps with
  | nil => exact pieces_eq_singleton sep last hlast
  | cons p ps ih =>
    rw [List.flatMap_cons, List.append_assoc, List.append_assoc, List.singleton_append,
      pieces_append_sep sep _ _ (hps p List.mem_cons_self),
      ih fun q hq => hps q (List.mem_cons_of_mem _ hq), List.cons_append]

theorem eq_nil_of_pieces_eq {s : List α} (h : pieces sep s = [[]]) : s = [] := by
  cases s with
  | nil => rfl
  | cons c rest =>
    rw [pieces_cons] at h
    split at h
    · simp [pieces] at h
    · simp at h

theorem exists_cut_of_count {s : List α} {n : Nat} (h : s.count sep = n + 1) :
    ∃ first rest, s = first ++ sep :: rest ∧ sep ∉ first ∧ rest.count sep = n := by
  have hmem : sep ∈ s := List.count_pos_iff.1 (by omega)
  obtain ⟨first, rest, rfl, hfirst⟩ := List.eq_append_cons_of_mem hmem
  rw [List.count_append, List.count_eq_zero.2 hfirst, List.count_cons_self] at h
  exact ⟨first, rest, rfl, hfirst, by omega⟩

/-! ## Lines -/

theorem eq_dropEnd (x : α) (s : List α) :
    s = dropEnd x s ++ [x] ∨ s = dropEnd x s ∧ (dropEnd x s).getLast? ≠ some x := by
  unfold dropEnd
  split
  · next h =>
    obtain ⟨front, rfl⟩ := List.getLast?_eq_some_iff.1 h
    rw [List.dropLast_concat]
    exact .inl rfl
  · next h => exact .inr ⟨rfl, h⟩

theorem dropEnd_concat (x : α) (s : List α) : dropEnd x (s ++ [x]) = s := by
  rw [dropEnd, List.getLast?_concat, if_pos rfl, List.dropLast_concat]

theorem dropEnd_eq_self {x : α} {s : List α} (h : s.getLast? ≠ some x) : dropEnd x s = s :=
  if_neg h

theorem mem_of_mem_dropEnd {x c : α} {s : List α} (h : c ∈ dropEnd x s) : c ∈ s := by
  unfold dropEnd at h
  split at h
  · exact List.dropLast_subset _ h
  · exact h

theorem lines_eq_nil_iff {s : List α} : lines feed ret s = [] ↔ s = [] := by
  constructor
  · intro h
    obtain ⟨hfront, hlast⟩ := List.append_eq_nil_iff.1 h
    have hne : pieces feed s ≠ [] := List.cons_ne_nil _ _
    have hnil : (pieces feed s).getLast hne = [] := Decidable.byContradiction fun hn => by
      simp [hn] at hlast
    have hpieces := List.dropLast_concat_getLast hne
    rw [hnil, List.map_eq_nil_iff.1 hfront] at hpieces
    exact eq_nil_of_pieces_eq hpieces.symm
  · rintro rfl
    rfl

/-! A text is read line by line: up to each line feed, and then what is left. -/

theorem lines_eq_singleton {l : List α} (hne : l ≠ []) (h : feed ∉ l) : lines feed ret l = [l] := by
  simp [lines, pieces_eq_singleton feed l h, hne]

theorem lines_append_feed {l : List α} (h : feed ∉ l) (s : List α) :
    lines feed ret (l ++ feed :: s) = dropEnd ret l :: lines feed ret s := by
  have hne : pieces feed s ≠ [] := List.cons_ne_nil _ _
  unfold lines
  simp only [pieces_append_sep feed l s h, List.dropLast_cons_of_ne_nil hne,
    List.getLast_cons hne, List.map_cons, List.cons_append]

/-- The lines of a text: a line feed ends each, with a carriage return in front of it left out, and
what follows the last line feed is one more, unless nothing does. -/
inductive LinesOf (feed ret : α) : List α → List (List α) → Prop where
  | nil : LinesOf feed ret [] []
  | last {l : List α} : l ≠ [] → feed ∉ l → LinesOf feed ret l [l]
  | feed {l s : List α} {ls : List (List α)} : feed ∉ l → LinesOf feed ret s ls →
      LinesOf feed ret (l ++ feed :: s) (dropEnd ret l :: ls)

theorem linesOf_lines (s : List α) : LinesOf feed ret s (lines feed ret s) := by
  induction h : s.length using Nat.strongRecOn generalizing s with
  | _ n ih =>
    by_cases hfeed : feed ∈ s
    · obtain ⟨l, rest, rfl, hl⟩ := List.eq_append_cons_of_mem hfeed
      rw [lines_append_feed hl]
      refine .feed hl (ih rest.length ?_ rest rfl)
      rw [← h, List.length_append, List.length_cons]
      omega
    · by_cases hne : s = []
      · subst hne
        exact .nil
      · rw [lines_eq_singleton hne hfeed]
        exact .last hne hfeed

theorem linesOf_iff {s : List α} {ls : List (List α)} :
    LinesOf feed ret s ls ↔ ls = lines feed ret s := by
  constructor
  · intro h
    induction h with
    | nil => rfl
    | last hne hl => exact (lines_eq_singleton hne hl).symm
    | feed hl _ ih => rw [lines_append_feed hl, ih]
  · rintro rfl
    exact linesOf_lines s

example : lines '\n' '\r' "a\r\n\n\rb\n\r".toList = ["a".toList, [], "\rb".toList, "\r".toList] := by
  decide

theorem not_mem_of_mem_lines {s l : List α} (h : l ∈ lines feed ret s) : feed ∉ l := by
  rcases List.mem_append.1 h with h | h
  · obtain ⟨p, hp, rfl⟩ := List.mem_map.1 h
    exact fun hf => not_mem_of_mem_pieces (List.dropLast_subset _ hp) (mem_of_mem_dropEnd hf)
  · split at h
    · cases h
    · rw [List.mem_singleton.1 h]
      exact not_mem_of_mem_pieces (List.getLast_mem _)

/-- Lines that neither hold a line feed nor end in a carriage return come back. -/
theorem lines_flatMap {ls : List (List α)} (hls : ∀ l ∈ ls, feed ∉ l)
    (hret : ∀ l ∈ ls, l.getLast? ≠ some ret) :
    lines feed ret (ls.flatMap (· ++ [feed])) = ls := by
  have hpieces := pieces_flatMap hls (List.not_mem_nil (a := feed))
  rw [List.append_nil] at hpieces
  simp only [lines, hpieces, List.dropLast_concat, List.getLast_concat, ↓reduceIte,
    List.append_nil]
  exact (List.map_congr_left fun l hl => dropEnd_eq_self (hret l hl)).trans ls.map_id

end Ratchet.Text
