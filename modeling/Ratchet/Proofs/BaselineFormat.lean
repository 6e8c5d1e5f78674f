import Mathlib.Data.List.Forall2
import Mathlib.Data.Set.List
import Ratchet.Proofs.BaselineText
import Ratchet.Proofs.Quoted

/-!
# The format of a baseline text

`ReadsLine` says what a line stands for without saying how it is read: with two tabs it has a name
and two number fields, and the flaw of any other line is looked for in its tabs, its mean and its
standard deviation, in this order. `ReadsLines` says the same of all lines. Either every line reads,
and the last entry of each name counts, or the first line that does not read is named by its number.
Both relations give one result for everything (`readsLine_iff`, `readsLines_iff`), which is what
reading gives (`read_exactly_format`).

What the lines up to some point leave behind, a baseline and a notice for each repeated name, is the
same whatever follows (`readLines_append`). The induction takes the lines off the end, since a line
is compared with the ones in front of it.
-/

namespace Ratchet.Baseline

/-- A line with two tabs, cut at them. -/
structure Fields (line name mean stddev : List Char) : Prop where
  line_eq : line = name ++ '\t' :: (mean ++ '\t' :: stddev)
  name_free : '\t' ∉ name
  mean_free : '\t' ∉ mean
  stddev_free : '\t' ∉ stddev

variable {line name mean stddev : List Char}

theorem Fields.pieces (h : Fields line name mean stddev) :
    Text.pieces '\t' line = [name, mean, stddev] := by
  rw [h.line_eq, Text.pieces_append_sep _ _ _ h.name_free, Text.pieces_append_sep _ _ _ h.mean_free,
    Text.pieces_eq_singleton _ _ h.stddev_free]

theorem exists_fields_iff :
    (∃ name mean stddev, Fields line name mean stddev) ↔ line.count '\t' = 2 := by
  constructor
  · rintro ⟨name, mean, stddev, h⟩
    exact Nat.succ.inj (Text.count_of_pieces h.pieces)
  · intro hcount
    obtain ⟨name, rest, rfl, hname, hrest⟩ := Text.exists_cut_of_count hcount
    obtain ⟨mean, stddev, rfl, hmean, hstddev⟩ := Text.exists_cut_of_count hrest
    exact ⟨name, mean, stddev, rfl, hname, hmean, List.count_eq_zero.1 hstddev⟩

/-- What a line reads as: its entry, or the first of its flaws. -/
inductive ReadsLine (line : List Char) : Except Flaw (String × Entry) → Prop where
  | fieldCount : line.count '\t' ≠ 2 → ReadsLine line (.error (.fieldCount (line.count '\t' + 1)))
  | mean {name mean stddev : List Char} : Fields line name mean stddev →
      Binary64.read? (Text.trim mean) = none →
      ReadsLine line (.error (.mean (String.ofList mean)))
  | stddev {name mean stddev : List Char} {m : Binary64} : Fields line name mean stddev →
      Binary64.read? (Text.trim mean) = some m → Binary64.read? (Text.trim stddev) = none →
      ReadsLine line (.error (.stddev (String.ofList stddev)))
  | entry {name mean stddev : List Char} {m s : Binary64} : Fields line name mean stddev →
      Binary64.read? (Text.trim mean) = some m → Binary64.read? (Text.trim stddev) = some s →
      ReadsLine line (.ok (String.ofList name, ⟨m, s⟩))

theorem exists_readsLine (line : List Char) : ∃ r, ReadsLine line r := by
  by_cases hcount : line.count '\t' = 2
  · obtain ⟨name, mean, stddev, h⟩ := exists_fields_iff.2 hcount
    cases hm : Binary64.read? (Text.trim mean) with
    | none => exact ⟨_, .mean h hm⟩
    | some m =>
      cases hs : Binary64.read? (Text.trim stddev) with
      | none => exact ⟨_, .stddev h hm hs⟩
      | some s => exact ⟨_, .entry h hm hs⟩
  · exact ⟨_, .fieldCount hcount⟩

theorem ReadsLine.readLine_eq {r : Except Flaw (String × Entry)} (h : ReadsLine line r) :
    readLine line = r := by
  unfold readLine readNumber
  cases h with
  | fieldCount hcount =>
    split
    · next hpieces => exact absurd (Nat.succ.inj (Text.count_of_pieces hpieces)) hcount
    · rw [Text.length_pieces]
  | mean h hm => simp only [h.pieces, hm]
  | stddev h hm hs => simp only [h.pieces, hm, hs]
  | entry h hm hs => simp only [h.pieces, hm, hs]

theorem readsLine_iff {r : Except Flaw (String × Entry)} : ReadsLine line r ↔ readLine line = r := by
  refine ⟨ReadsLine.readLine_eq, ?_⟩
  rintro rfl
  obtain ⟨r, h⟩ := exists_readsLine line
  exact h.readLine_eq ▸ h

theorem exists_readsLine_ok_iff :
    (∃ e, ReadsLine line (.ok e)) ↔
      ∃ name mean stddev, Fields line name mean stddev ∧
        (Binary64.read? (Text.trim mean)).isSome ∧ (Binary64.read? (Text.trim stddev)).isSome := by
  constructor
  · rintro ⟨_, _ | _ | _ | ⟨h, hm, hs⟩⟩
    exact ⟨_, _, _, h, Option.isSome_of_mem hm, Option.isSome_of_mem hs⟩
  · rintro ⟨name, mean, stddev, h, hm, hs⟩
    obtain ⟨m, hm⟩ := Option.isSome_iff_exists.1 hm
    obtain ⟨s, hs⟩ := Option.isSome_iff_exists.1 hs
    exact ⟨_, .entry h hm hs⟩

/-- The letter that a reason starts with. -/
def Flaw.letter : Flaw → Char
  | .fieldCount _ => 'e'
  | .mean _ => 'm'
  | .stddev _ => 's'

theorem head?_append {front rest : String} {c : Char} (h : front.toList.head? = some c) :
    (front ++ rest).toList.head? = some c := by
  rw [String.toList_append, List.head?_append, h, Option.some_or]

theorem Flaw.head?_reason (f : Flaw) : f.reason.toList.head? = some f.letter := by
  cases f with
  | fieldCount => exact head?_append (c := 'e') (by decide +kernel)
  | mean => exact head?_append (head?_append (c := 'm') (by decide +kernel))
  | stddev => exact head?_append (head?_append (c := 's') (by decide +kernel))

theorem Flaw.reason_injective {f g : Flaw} (h : f.reason = g.reason) : f = g := by
  have hletter : f.letter = g.letter := by
    rw [← Option.some.injEq, ← head?_reason, h, head?_reason]
  have hquoted {front back field field' : String}
      (heq : front ++ Text.quoted field ++ back = front ++ Text.quoted field' ++ back) :
      field = field' :=
    Text.quoted_injective ((String.append_right_inj _).1 ((String.append_left_inj _).1 heq))
  cases f with
  | fieldCount found =>
    cases g with
    | fieldCount found' => rw [toString_injective ((String.append_right_inj _).1 h)]
    | _ => cases hletter
  | mean field =>
    cases g with
    | mean field' => rw [hquoted h]
    | _ => cases hletter
  | stddev field =>
    cases g with
    | stddev field' => rw [hquoted h]
    | _ => cases hletter

/-- One more carriage return at the end of a line stands in the last field. Only a flaw of that
field names it. -/
def withReturn : Except Flaw (String × Entry) → Except Flaw (String × Entry)
  | .error (.stddev field) => .error (.stddev (field.push '\r'))
  | r => r

theorem Fields.append_return (h : Fields line name mean stddev) :
    Fields (line ++ ['\r']) name mean (stddev ++ ['\r']) where
  line_eq := by rw [h.line_eq]; simp
  name_free := h.name_free
  mean_free := h.mean_free
  stddev_free := by simpa using h.stddev_free

theorem ReadsLine.append_return {r : Except Flaw (String × Entry)} (h : ReadsLine line r) :
    ReadsLine (line ++ ['\r']) (withReturn r) := by
  have htrim (s : List Char) : Text.trim (s ++ ['\r']) = Text.trim s := Text.trim_append_blank rfl s
  cases h with
  | fieldCount hcount =>
    have heq : (line ++ ['\r']).count '\t' = line.count '\t' := by simp
    exact heq ▸ .fieldCount (heq ▸ hcount)
  | mean h hm => exact .mean h.append_return hm
  | @stddev _ _ stddev _ h hm hs =>
    have hfield : (String.ofList stddev).push '\r' = String.ofList (stddev ++ ['\r']) := by
      simp [← String.toList_inj]
    rw [← htrim] at hs
    rw [withReturn, hfield]
    exact .stddev h.append_return hm hs
  | entry h hm hs =>
    rw [← htrim] at hs
    exact .entry h.append_return hm hs

/-! ## All lines -/

/-- A notice for each entry whose name an earlier one has, in order, with the number of its line. -/
def repeats (entries : List (String × Entry)) : List Notice :=
  entries.zipIdx.filterMap fun (e, i) =>
    if e.1 ∈ (entries.take i).map Prod.fst then some (.duplicate e.1 (i + 1)) else none

theorem repeats_concat (entries : List (String × Entry)) (e : String × Entry) :
    repeats (entries ++ [e]) = repeats entries ++
      if e.1 ∈ entries.map Prod.fst then [.duplicate e.1 (entries.length + 1)] else [] := by
  unfold repeats
  rw [List.zipIdx_append, List.filterMap_append]
  refine congrArg₂ _ (List.filterMap_congr ?_) ?_
  · rintro ⟨e', i⟩ hmem
    have hlt : i < entries.length := (List.mem_zipIdx' hmem).1
    simp only [List.take_append_of_le_length (Nat.le_of_lt hlt)]
  · simp only [List.zipIdx_singleton, Nat.zero_add, List.filterMap_cons, List.filterMap_nil,
      List.take_left]
    by_cases hrepeat : e.1 ∈ entries.map Prod.fst
    · simp only [if_pos hrepeat]
    · simp only [if_neg hrepeat]

/-- What the lines of a text read as: the baseline of the last entry of each name, or the number of
the first line with a flaw; with the notices for the lines up to there. -/
inductive ReadsLines : List (List Char) → Reading → Prop where
  | baseline {lines : List (List Char)} {entries : List (String × Entry)} {b : Baseline} :
      List.Forall₂ (fun line e => ReadsLine line (.ok e)) lines entries →
      (∀ name, b.get? name = entries.reverse.lookup name) →
      ReadsLines lines ⟨.ok b, repeats entries⟩
  | flaw {good rest : List (List Char)} {bad : List Char} {entries : List (String × Entry)}
      {flaw : Flaw} :
      List.Forall₂ (fun line e => ReadsLine line (.ok e)) good entries →
      ReadsLine bad (.error flaw) →
      ReadsLines (good ++ bad :: rest) ⟨.error (good.length + 1, flaw), repeats entries⟩

variable {lines : List (List Char)} {entries : List (String × Entry)}

theorem forall₂_readsLine_iff :
    List.Forall₂ (fun line e => ReadsLine line (.ok e)) lines entries ↔
      lines.map readLine = entries.map .ok := by
  simp only [readsLine_iff]
  rw [← List.forall₂_map_right_iff, ← List.forall₂_map_left_iff, List.forall₂_eq_eq_eq]

theorem exists_map_readLine_iff :
    (∃ entries : List (String × Entry), lines.map readLine = entries.map .ok) ↔
      ∀ line ∈ lines, ∃ e, ReadsLine line (.ok e) := by
  have hrange : lines.map readLine ∈ Set.range (List.map Except.ok) ↔
      ∀ r ∈ lines.map readLine, r ∈ Set.range Except.ok := by
    rw [Set.range_list_map, Set.mem_ofPred_eq]
  simpa only [Set.mem_range, List.forall_mem_map, eq_comm, readsLine_iff] using hrange

/-- A line behind lines that read: its name is looked for among theirs. -/
theorem readLines_cons {e : String × Entry} (h : readLine line = .ok e) (rest : List (List Char)) :
    readLines (.ofList entries) entries.length (line :: rest) =
      let later := readLines (.ofList (entries ++ [e])) (entries ++ [e]).length rest
      ⟨later.outcome, (if e.1 ∈ entries.map Prod.fst then
        [.duplicate e.1 (entries.length + 1)] else []) ++ later.notices⟩ := by
  rw [readLines, h]
  simp only [NameMap.isSome_get?_ofList, NameMap.ofList_concat, List.length_append,
    List.length_singleton]

/-- What lines that read leave behind for the lines after them. -/
theorem readLines_append {good : List (List Char)} (h : good.map readLine = entries.map .ok)
    (rest : List (List Char)) :
    readLines .empty 0 (good ++ rest) =
      let later := readLines (.ofList entries) entries.length rest
      ⟨later.outcome, repeats entries ++ later.notices⟩ := by
  induction entries using List.reverseRecOn generalizing good rest with
  | nil =>
    rw [List.map_eq_nil_iff.1 h]
    rfl
  | append_singleton entries e ih =>
    rw [List.map_append] at h
    obtain ⟨front, last, rfl, hfront, hlast⟩ := List.map_eq_append_iff.1 h
    obtain ⟨line, rfl, hline⟩ := List.map_eq_singleton_iff.1 hlast
    rw [List.append_assoc, ih hfront, List.singleton_append, readLines_cons hline, repeats_concat]
    simp only [List.append_assoc]

theorem exists_readsLines (lines : List (List Char)) : ∃ reading, ReadsLines lines reading := by
  induction lines using List.reverseRecOn with
  | nil => exact ⟨_, .baseline .nil fun _ => NameMap.get?_ofList [] _⟩
  | append_singleton lines line ih =>
    obtain ⟨_, ⟨hgood, hb⟩ | ⟨hgood, hbad⟩⟩ := ih
    · obtain ⟨flaw | e, hline⟩ := exists_readsLine line
      · exact ⟨_, .flaw hgood hline⟩
      · exact ⟨_, .baseline (List.rel_append hgood (.cons hline .nil)) fun _ =>
          NameMap.get?_ofList _ _⟩
    · rw [List.append_assoc]
      exact ⟨_, .flaw hgood hbad⟩

theorem ReadsLines.readLines_eq {reading : Reading} (h : ReadsLines lines reading) :
    readLines .empty 0 lines = reading := by
  cases h with
  | baseline hlines hb =>
    have hread := readLines_append (forall₂_readsLine_iff.1 hlines) []
    rw [List.append_nil] at hread
    rw [hread, NameMap.ext_get? fun name => (hb name).trans (NameMap.get?_ofList _ name).symm]
    simp [readLines]
  | @flaw good rest bad entries flaw hgood hbad =>
    rw [readLines_append (forall₂_readsLine_iff.1 hgood), hgood.length_eq, readLines,
      readsLine_iff.1 hbad]
    simp

theorem readsLines_iff {reading : Reading} :
    ReadsLines lines reading ↔ readLines .empty 0 lines = reading := by
  refine ⟨ReadsLines.readLines_eq, ?_⟩
  rintro rfl
  obtain ⟨reading, h⟩ := exists_readsLines lines
  exact h.readLines_eq ▸ h

/-! ## Texts -/

theorem exists_outcome_read_iff {content : String} :
    (∃ b, (read content).outcome = .ok b) ↔
      ∀ line ∈ textLines content, ∃ e, ReadsLine line (.ok e) := by
  rw [← exists_map_readLine_iff]
  constructor
  · rintro ⟨b, hb⟩
    obtain ⟨entries, hentries, -⟩ := outcome_read_eq_ok.1 hb
    exact ⟨entries, hentries⟩
  · rintro ⟨entries, hentries⟩
    exact ⟨_, outcome_read_eq_ok.2 ⟨entries, hentries, rfl⟩⟩

/-- A text reads as its lines say, in one way. They end at line feeds, of which the last starts no
further line; a carriage return in front of a line feed belongs to the line end, and one more at the
end of any line is taken off. The text reads as a baseline exactly if all its lines have two tabs
and numbers behind them. Further carriage returns at the end of a line change nothing but the text
of a flaw in its last field. A reason shows how many fields there are or which of them is no number,
and tells the flaw. -/
theorem read_exactly_format (content : String) :
    ∃ raw : List (List Char), Text.LinesOf '\n' '\r' content.toList raw ∧
      let lines := raw.map (Text.dropEnd '\r')
      (∀ reading, ReadsLines lines reading ↔ read content = reading) ∧
      ((∃ b, (read content).outcome = .ok b) ↔
        ∀ line ∈ lines, ∃ name mean stddev, Fields line name mean stddev ∧
          (Binary64.read? (Text.trim mean)).isSome ∧ (Binary64.read? (Text.trim stddev)).isSome) ∧
      (∀ line r, ReadsLine line r → ReadsLine (line ++ ['\r']) (withReturn r)) ∧
      (∀ found field, (Flaw.fieldCount found).reason =
          "expected 3 tab-separated fields, found " ++ toString found ∧
        (Flaw.mean field).reason = "mean " ++ Text.quoted field ++ " is not a number" ∧
        (Flaw.stddev field).reason = "stddev " ++ Text.quoted field ++ " is not a number") ∧
      ∀ flaw flaw' : Flaw, flaw.reason = flaw'.reason → flaw = flaw' := by
  refine ⟨_, Text.linesOf_lines _, fun reading => readsLines_iff, ?_, fun _ _ => .append_return,
    fun _ _ => ⟨rfl, rfl, rfl⟩, fun _ _ => Flaw.reason_injective⟩
  simp only [← exists_readsLine_ok_iff]
  exact exists_outcome_read_iff

/-- A repeated name and carriage returns, then three lines with flaws, the first of them with an
empty name and two flaws. With one more carriage return the line in front of it still reads. -/
theorem read_stops_at_first_flaw :
    let content := "b\t 1e1\t-0\r\r\nb\t2\t1\r\n\tx \t\r\n\n\t1\tinf\ty"
    let e : String × Entry := ("b", ⟨.ofNat 2, .ofNat 1⟩)
    read content = ⟨.error (3, .mean "x "), [.duplicate "b" 2]⟩ ∧
      ReadsLine "b\t2\t1".toList (.ok e) ∧ ReadsLine ("b\t2\t1".toList ++ ['\r']) (.ok e) := by
  intro content e
  obtain ⟨raw, hraw, hreads, -, hreturn, -⟩ := read_exactly_format content
  obtain rfl := Text.linesOf_iff.1 hraw
  have hlines : (Text.lines '\n' '\r' content.toList).map (Text.dropEnd '\r') =
      ["b\t 1e1\t-0".toList, "b\t2\t1".toList] ++
        "\tx \t".toList :: [[], "\t1\tinf\ty".toList] := by
    decide +kernel
  have hfirst : ReadsLine "b\t 1e1\t-0".toList (.ok ("b", ⟨.ofNat 10, .zero true⟩)) :=
    readsLine_iff.2 (by decide +kernel)
  have hsecond : ReadsLine "b\t2\t1".toList (.ok e) := readsLine_iff.2 (by decide +kernel)
  have hthird : ReadsLine "\tx \t".toList (.error (.mean "x ")) :=
    readsLine_iff.2 (by decide +kernel)
  refine ⟨(hreads _).1 ?_, hsecond, hreturn _ _ hsecond⟩
  rw [hlines]
  exact .flaw (.cons hfirst (.cons hsecond .nil)) hthird

end Ratchet.Baseline
