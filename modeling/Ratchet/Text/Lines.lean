/-!
# Pieces and lines

`pieces sep s` cuts a text at every separator; there is always one piece more than separators.
`lines` cuts at line feeds, counts nothing after the last of them as a line of its own, and takes
one carriage return off before each line feed. Both work on characters and on bytes alike.
-/

namespace Ratchet.Text

variable {α : Type} [DecidableEq α]

/-- The first piece, and the pieces after it. -/
def cut (sep : α) : List α → List α × List (List α)
  | [] => ([], [])
  | c :: rest =>
    let (first, others) := cut sep rest
    if c = sep then ([], first :: others) else (c :: first, others)

def pieces (sep : α) (s : List α) : List (List α) := (cut sep s).1 :: (cut sep s).2

/-- A text without one `x` at its end, if it ends so. -/
def dropEnd (x : α) (s : List α) : List α := if s.getLast? = some x then s.dropLast else s

/-- The pieces that a line feed ends, each without a carriage return at its end; what follows the
last line feed is a line as it stands, unless nothing follows. -/
def lines (feed ret : α) (s : List α) : List (List α) :=
  let ps := pieces feed s
  let last := ps.getLast (List.cons_ne_nil _ _)
  ps.dropLast.map (dropEnd ret) ++ (if last = [] then [] else [last])

theorem pieces_nil (sep : α) : pieces sep [] = [[]] := rfl

theorem pieces_sep (sep : α) (s : List α) : pieces sep (sep :: s) = [] :: pieces sep s := by
  simp [pieces, cut]

theorem pieces_append_sep (sep : α) (s t : List α) (h : sep ∉ s) :
    pieces sep (s ++ sep :: t) = s :: pieces sep t := by
  induction s with
  | nil => exact pieces_sep sep t
  | cons c r ih =>
    have hc : c ≠ sep := fun e => h (e ▸ List.mem_cons_self)
    have hr := ih fun e => h (List.mem_cons_of_mem _ e)
    simp only [pieces, List.cons.injEq] at hr
    simp only [pieces, List.cons_append, cut, if_neg hc, hr.1, hr.2]

theorem pieces_eq_singleton (sep : α) (s : List α) (h : sep ∉ s) : pieces sep s = [s] := by
  induction s with
  | nil => rfl
  | cons c r ih =>
    have hc : c ≠ sep := fun e => h (e ▸ List.mem_cons_self)
    have hr := ih fun e => h (List.mem_cons_of_mem _ e)
    simp only [pieces, List.cons.injEq] at hr
    simp only [pieces, cut, if_neg hc, hr.1, hr.2]

end Ratchet.Text
