import Ratchet.Proofs.Lines
import Ratchet.Proofs.NameMap
import Ratchet.Proofs.NumberText
import Ratchet.Proofs.Stages
import Ratchet.Baseline

/-!
# Baseline texts read back

A line written for an entry reads as that entry, whatever stands in its name short of a tab or a
line feed (`readLine_line`): the two numbers hold no white space, so the tabs around them are the
only ones and nothing at the end of the line is taken for a part of the line end. A whole text is
read by inserting what its lines say one after the other (`outcome_readLines_eq_ok`), and the lines
of a rendered text are those of its entries in order (`textLines_of_render`).

In the other direction no line gives a name that could not be written again: it was cut out between
line feeds and tabs (`isWritable_of_readLine`).
-/

namespace Ratchet.Baseline

theorem toList_tagged (x : Binary64) : x.tagged.toList = Layout.tagged.number x :=
  String.toList_ofList

theorem not_blank_of_mem_tagged {x : Binary64} {c : Char} (h : c ∈ x.tagged.toList) :
    Text.isBlank c = false :=
  Layout.not_blank_of_mem_number Layout.tagged (toList_tagged x ▸ h)

theorem tagged_ne_nil (x : Binary64) : x.tagged.toList ≠ [] :=
  toList_tagged x ▸ Layout.number_ne_nil Layout.tagged x

theorem not_mem_tagged {x : Binary64} {c : Char} (hc : Text.isBlank c = true) :
    c ∉ x.tagged.toList := fun h => by
  rw [not_blank_of_mem_tagged h] at hc
  cases hc

theorem readNumber_tagged (x : Binary64) : readNumber x.tagged.toList = some x := by
  unfold readNumber
  rw [Text.trim_eq_self fun _ h => not_blank_of_mem_tagged h, toList_tagged]
  exact Layout.read?_number Layout.tagged x

theorem isWritable_iff {name : String} :
    isWritable name = true ↔ '\t' ∉ name.toList ∧ '\n' ∉ name.toList := by
  unfold isWritable
  rw [Bool.not_eq_true', List.any_eq_false]
  constructor
  · intro h
    exact ⟨fun ht => h _ ht rfl, fun hn => h _ hn rfl⟩
  · rintro ⟨ht, hn⟩ c hc hor
    rcases Bool.or_eq_true _ _ ▸ hor with heq | heq
    · exact ht (eq_of_beq heq ▸ hc)
    · exact hn (eq_of_beq heq ▸ hc)

def line (e : String × Entry) : List Char :=
  e.1.toList ++ '\t' :: (e.2.mean.tagged.toList ++ '\t' :: e.2.stddev.tagged.toList)

theorem toList_renderEntry (name : String) (e : Entry) :
    (renderEntry name e).toList = line (name, e) ++ ['\n'] := by
  simp [renderEntry, line]

theorem readLine_line {e : String × Entry} (h : isWritable e.1 = true) : readLine (line e) = .ok e := by
  have hpieces : Text.pieces '\t' (line e) =
      [e.1.toList, e.2.mean.tagged.toList, e.2.stddev.tagged.toList] := by
    unfold line
    rw [Text.pieces_append_sep _ _ _ (isWritable_iff.1 h).1,
      Text.pieces_append_sep _ _ _ (not_mem_tagged rfl),
      Text.pieces_eq_singleton _ _ (not_mem_tagged rfl)]
  unfold readLine
  rw [hpieces]
  simp only [readNumber_tagged, String.ofList_toList]

theorem not_mem_line {e : String × Entry} (h : isWritable e.1 = true) : '\n' ∉ line e := by
  unfold line
  simp only [List.mem_append, List.mem_cons, not_or]
  exact ⟨(isWritable_iff.1 h).2, by decide, not_mem_tagged rfl, by decide, not_mem_tagged rfl⟩

theorem getLast?_line (e : String × Entry) :
    (line e).getLast? = e.2.stddev.tagged.toList.getLast? := by
  have hsplit : line e = (e.1.toList ++ '\t' :: (e.2.mean.tagged.toList ++ ['\t'])) ++
      e.2.stddev.tagged.toList := by
    simp [line]
  have hsome := List.getLast?_isSome.2 (tagged_ne_nil e.2.stddev)
  rw [hsplit, List.getLast?_append, Option.or_of_isSome hsome]

theorem getLast?_line_ne (e : String × Entry) : (line e).getLast? ≠ some '\r' := by
  rw [getLast?_line]
  intro h
  exact not_mem_tagged rfl (List.mem_of_getLast? h)

/-! ## Rendering -/

theorem renderEntries_of_writable {entries : List (String × Entry)}
    (h : ∀ e ∈ entries, isWritable e.1 = true) :
    renderEntries entries =
      .ok (String.ofList ((entries.map line).flatMap (· ++ ['\n']))) := by
  induction entries with
  | nil => rfl
  | cons e rest ih =>
    unfold renderEntries
    rw [if_pos (h e List.mem_cons_self), ih fun e' he' => h e' (List.mem_cons_of_mem _ he')]
    refine congrArg Except.ok (String.toList_inj.1 ?_)
    rw [String.toList_append, toList_renderEntry, String.toList_ofList, String.toList_ofList]
    rfl

theorem writable_of_renderEntries {entries : List (String × Entry)} {text : String}
    (h : renderEntries entries = .ok text) : ∀ e ∈ entries, isWritable e.1 = true := by
  induction entries generalizing text with
  | nil => exact fun _ he => by cases he
  | cons e rest ih =>
    unfold renderEntries at h
    split at h
    · next hwritable =>
      obtain ⟨later, hlater, -⟩ := map_eq_ok.1 h
      intro e' he'
      rcases List.mem_cons.1 he' with rfl | he'
      · exact hwritable
      · exact ih hlater e' he'
    · cases h

theorem exists_render_iff {b : Baseline} :
    (∃ text, b.render = .ok text) ↔ ∀ name ∈ b.names, isWritable name = true := by
  constructor
  · rintro ⟨text, h⟩ name hname
    obtain ⟨e, he, rfl⟩ := List.mem_map.1 hname
    exact writable_of_renderEntries h e he
  · intro h
    exact ⟨_, renderEntries_of_writable fun e he => h e.1 (List.mem_map_of_mem he)⟩

/-- The lines of a rendered text are those of the entries, in their order. -/
theorem textLines_of_render {b : Baseline} {text : String} (h : b.render = .ok text) :
    textLines text = b.entries.map line := by
  have hwritable := writable_of_renderEntries h
  have htext := (renderEntries_of_writable hwritable).symm.trans h
  have hfeed : ∀ l ∈ b.entries.map line, '\n' ∉ l := by
    intro l hl
    obtain ⟨e, he, rfl⟩ := List.mem_map.1 hl
    exact not_mem_line (hwritable e he)
  have hret : ∀ l ∈ b.entries.map line, l.getLast? ≠ some '\r' := by
    intro l hl
    obtain ⟨e, -, rfl⟩ := List.mem_map.1 hl
    exact getLast?_line_ne e
  cases htext
  unfold textLines
  rw [String.toList_ofList, Text.lines_flatMap hfeed hret]
  exact (List.map_congr_left fun l hl => Text.dropEnd_eq_self (hret l hl)).trans (List.map_id _)

theorem map_readLine_of_render {b : Baseline} {text : String} (h : b.render = .ok text) :
    (textLines text).map readLine = b.entries.map .ok := by
  rw [textLines_of_render h, List.map_map]
  exact List.map_congr_left fun e he => readLine_line (writable_of_renderEntries h e he)

/-! ## Reading -/

/-- Reading succeeds exactly when every line reads, and then inserts what they say in turn. -/
theorem outcome_readLines_eq_ok {b b' : Baseline} {n : Nat} {lines : List (List Char)} :
    (readLines b n lines).outcome = .ok b' ↔
      ∃ entries : List (String × Entry), lines.map readLine = entries.map .ok ∧
        entries.foldl (fun b e => b.insert e.1 e.2) b = b' := by
  induction lines generalizing b n with
  | nil =>
    constructor
    · intro h
      cases h
      exact ⟨[], rfl, rfl⟩
    · rintro ⟨entries, hentries, rfl⟩
      cases List.map_eq_nil_iff.1 hentries.symm
      rfl
  | cons l rest ih =>
    unfold readLines
    constructor
    · intro h
      split at h
      · cases h
      · next name entry hline =>
        obtain ⟨entries, hentries, hfold⟩ := ih.1 h
        exact ⟨(name, entry) :: entries, by rw [List.map_cons, hline, hentries]; rfl, hfold⟩
    · rintro ⟨entries, hentries, rfl⟩
      cases entries with
      | nil => cases hentries
      | cons e entries =>
        obtain ⟨hline, hrest⟩ := List.cons.inj hentries
        rw [hline]
        exact ih.2 ⟨entries, hrest, rfl⟩

theorem outcome_read_eq_ok {content : String} {b : Baseline} :
    (read content).outcome = .ok b ↔
      ∃ entries : List (String × Entry), (textLines content).map readLine = entries.map .ok ∧
        NameMap.ofList entries = b := outcome_readLines_eq_ok

theorem read_of_render {b : Baseline} {text : String} (h : b.render = .ok text) :
    (read text).outcome = .ok b :=
  outcome_read_eq_ok.2 ⟨b.entries, map_readLine_of_render h, NameMap.ofList_entries b⟩

theorem isWritable_of_readLine {l : List Char} {e : String × Entry} (h : readLine l = .ok e)
    (hl : '\n' ∉ l) : isWritable e.1 = true := by
  unfold readLine at h
  split at h
  · next name mean stddev hpieces =>
    have hname : name ∈ Text.pieces '\t' l := hpieces ▸ List.mem_cons_self
    split at h
    · cases h
    · cases h
    · cases h
      rw [isWritable_iff, String.toList_ofList]
      exact ⟨Text.not_mem_of_mem_pieces hname, fun hn => hl (Text.mem_of_mem_pieces hname hn)⟩
  · cases h

theorem not_mem_textLines {content : String} {l : List Char} (h : l ∈ textLines content) :
    '\n' ∉ l := by
  obtain ⟨l', hl', rfl⟩ := List.mem_map.1 h
  exact fun hn => Text.not_mem_of_mem_lines hl' (Text.mem_of_mem_dropEnd hn)

theorem exists_render_of_read {content : String} {b : Baseline}
    (h : (read content).outcome = .ok b) : ∃ text, b.render = .ok text := by
  obtain ⟨entries, hentries, rfl⟩ := outcome_read_eq_ok.1 h
  refine exists_render_iff.2 fun name hname => ?_
  obtain ⟨e, he, rfl⟩ := NameMap.mem_of_mem_names_ofList hname
  have hok : Except.ok e ∈ (textLines content).map readLine := hentries ▸ List.mem_map_of_mem he
  obtain ⟨l, hl, hread⟩ := List.mem_map.1 hok
  exact isWritable_of_readLine hread (not_mem_textLines hl)

/-- A baseline has a text exactly when no name in it holds a tab or a line feed, and the text reads
back to it. Any text that reads has such a form, which has one line for each metric in ascending
order and which reading and rendering leave as it is. -/
theorem read_render_both_ways :
    (∀ b : Baseline,
      ((∃ text, b.render = .ok text) ↔
        ∀ name ∈ b.names, '\t' ∉ name.toList ∧ '\n' ∉ name.toList) ∧
      ∀ text, b.render = .ok text → (read text).outcome = .ok b) ∧
    ∀ (content : String) (b : Baseline), (read content).outcome = .ok b →
      ∃ text, b.render = .ok text ∧ (read text).outcome = .ok b ∧
        (textLines text).map readLine = b.entries.map .ok ∧
        (b.names.Pairwise fun name name' => name < name') ∧
        ∀ b', (read text).outcome = .ok b' → b'.render = .ok text := by
  refine ⟨fun b => ⟨?_, fun text h => read_of_render h⟩, fun content b h => ?_⟩
  · rw [exists_render_iff]
    simp only [isWritable_iff]
  · obtain ⟨text, htext⟩ := exists_render_of_read h
    have hback := read_of_render htext
    refine ⟨text, htext, hback, map_readLine_of_render htext, ?_, fun b' hb' => ?_⟩
    · exact List.pairwise_map.2 b.ascending
    · rw [hback] at hb'
      cases hb'
      exact htext

/-- An empty name, a carriage return in a name, a negative zero and values out of range; and a text
with a repeated name, blanks around a number and no end of its last line. -/
theorem read_render_odd_entries :
    let b : Baseline := .ofList [("", ⟨.zero true, .inf true⟩), ("a\r: é", ⟨.nan, .ofNat 3⟩)]
    let content := "b\t 1e1\t-0\r\n\tinf\tNaN\nb\t2\t1"
    (∃ text, b.render = .ok text ∧ (read text).outcome = .ok b) ∧
      ∃ b' text, (read content).outcome = .ok b' ∧ b'.render = .ok text ∧
        (read text).outcome = .ok b' ∧ b'.names = ["", "b"] := by
  intro b content
  have hnames : ∀ name ∈ b.names, '\t' ∉ name.toList ∧ '\n' ∉ name.toList := by decide +kernel
  obtain ⟨text, htext⟩ := (read_render_both_ways.1 b).1.2 hnames
  refine ⟨⟨text, htext, (read_render_both_ways.1 b).2 text htext⟩, ?_⟩
  have hread : (read content).outcome.toOption.map NameMap.names = some ["", "b"] := by
    decide +kernel
  cases hb : (read content).outcome with
  | error e =>
    rw [hb] at hread
    cases hread
  | ok b' =>
    obtain ⟨text', htext', hback, -⟩ := read_render_both_ways.2 content b' hb
    rw [hb] at hread
    exact ⟨b', text', rfl, htext', hback, Option.some.inj hread⟩

end Ratchet.Baseline
