import Ratchet.Proofs.NameMap
import Ratchet.Proofs.ReportDocument
import Ratchet.Proofs.Rereading

/-!
# Baselines read back from their documents

The document of a baseline always reads, with and without line ends, and as a baseline with the same
names, whatever characters they hold. Each number of an entry is read for itself
(`Entry.ofWritten?_json`), and so comes out close to what it was, but not always as what it was
(`reads_back_nearly`, `reads_back_changed`).
-/

namespace Ratchet

/-- What an entry of a document is read as. -/
def Entry.reread? (e : Entry) : Option Entry := do
  return ⟨← e.mean.reread?, ← e.stddev.reread?⟩

structure Entry.CloseTo (e' e : Entry) : Prop where
  mean : e'.mean.CloseTo e.mean
  stddev : e'.stddev.CloseTo e.stddev

structure Entry.Short (e : Entry) : Prop where
  mean : e.mean.Short
  stddev : e.stddev.Short

instance (e : Entry) : Decidable e.Short :=
  decidable_of_iff (e.mean.Short ∧ e.stddev.Short)
    ⟨fun h => ⟨h.1, h.2⟩, fun h => ⟨h.mean, h.stddev⟩⟩

theorem Entry.ofWritten?_json (e : Entry) : Entry.ofWritten? e.json.written = e.reread? := rfl

theorem Entry.exists_reread {e : Entry} (h : e.Finite) :
    ∃ e', e.reread? = some e' ∧ e'.CloseTo e := by
  obtain ⟨mean, hmean, hclose⟩ := Binary64.exists_reread h.mean
  obtain ⟨stddev, hstddev, hclose'⟩ := Binary64.exists_reread h.stddev
  refine ⟨⟨mean, stddev⟩, ?_, hclose, hclose'⟩
  simp [Entry.reread?, hmean, hstddev]

theorem Entry.reread?_of_short {e : Entry} (h : e.Short) : e.reread? = some e := by
  simp [Entry.reread?, Binary64.reread?_of_short h.mean, Binary64.reread?_of_short h.stddev]

namespace Baseline

/-- An entry and what it is read as, under one name. -/
structure Rereads (p' p : String × Entry) : Prop where
  name : p'.1 = p.1
  entry : p.2.reread? = some p'.2

theorem exists_ofFields? {entries : List (String × Entry)} (h : ∀ p ∈ entries, p.2.Finite) :
    ∃ entries',
      ofFields? (Json.writtenFields (entries.map fun p => (p.1, p.2.json))) = some entries' ∧
        List.Forall₂ Rereads entries' entries := by
  induction entries with
  | nil => exact ⟨[], rfl, .nil⟩
  | cons p rest ih =>
    obtain ⟨hp, hrest⟩ := List.forall_mem_cons.1 h
    obtain ⟨e', he', -⟩ := Entry.exists_reread hp
    obtain ⟨rest', hrest', hall⟩ := ih hrest
    refine ⟨(p.1, e') :: rest', ?_, .cons ⟨rfl, he'⟩ hall⟩
    simp [ofFields?, Json.writtenFields, Entry.ofWritten?_json, he', hrest']

variable {entries entries' : List (String × Entry)}

theorem names_of_rereads (h : List.Forall₂ Rereads entries' entries) :
    entries'.map Prod.fst = entries.map Prod.fst := by
  induction h with
  | nil => rfl
  | cons hp _ ih => rw [List.map_cons, List.map_cons, hp.name, ih]

theorem find?_of_rereads (h : List.Forall₂ Rereads entries' entries) (name : String) :
    NameMap.find? name entries' = (NameMap.find? name entries).bind Entry.reread? := by
  induction h with
  | nil => rfl
  | @cons p' p _ _ hp _ ih =>
    obtain ⟨n', e'⟩ := p'
    obtain ⟨n, e⟩ := p
    obtain ⟨hname, hentry⟩ := hp
    cases hname
    rw [NameMap.find?, NameMap.find?]
    split
    · exact hentry.symm
    · exact ih

/-- Whatever text reads as the document of a baseline is read as a baseline with these names, entry
by entry. -/
theorem exists_ofJson? {b : Baseline} (h : b.Finite) :
    ∃ b' : Baseline, (∀ s, Json.Written.read? s = some b.json.written → ofJson? s = some b') ∧
      b'.names = b.names ∧ ∀ name, b'.get? name = (b.get? name).bind Entry.reread? := by
  obtain ⟨entries', hread, hall⟩ := exists_ofFields? h
  have hnames := names_of_rereads hall
  have hascending : entries'.Pairwise fun p q => p.1 < q.1 := by
    have hsorted := List.pairwise_map.2 b.ascending
    rw [← hnames] at hsorted
    exact List.pairwise_map.1 hsorted
  refine ⟨⟨entries', hascending⟩, fun s hs => ?_, hnames, find?_of_rereads hall⟩
  unfold ofJson?
  simp only [hs, json, Json.written, hread, Option.map_some]
  exact congrArg some (NameMap.ofList_entries ⟨entries', hascending⟩)

theorem eq_iff_rereads {b b' : Baseline}
    (h : ∀ name, b'.get? name = (b.get? name).bind Entry.reread?) :
    b' = b ↔ ∀ p ∈ b.entries, p.2.reread? = some p.2 := by
  constructor
  · rintro rfl ⟨name, e⟩ hp
    have hsame := h name
    rw [NameMap.get?_eq_some_iff.2 hp, Option.bind_some] at hsame
    exact hsame.symm
  · intro hall
    refine NameMap.ext_get? fun name => ?_
    rw [h]
    cases hsome : b.get? name with
    | none => rfl
    | some e => exact hall _ (NameMap.get?_eq_some_iff.1 hsome)

/-- The document of a baseline with finite numbers reads, on one line and on many, and as a baseline
with the same names. The numbers come back with their signs and close to what they were, and those
that are short come back as they were. So the baseline comes back as it was just if each of its
entries reads as itself. -/
theorem reads_back_nearly (b : Baseline) (h : b.Finite) :
    ∃ b', ofJson? b.json.compact = some b' ∧ ofJson? b.json.pretty = some b' ∧
      b'.names = b.names ∧
      (∀ name e, b.get? name = some e →
        ∃ e', b'.get? name = some e' ∧ e'.CloseTo e ∧ (e.Short → e' = e)) ∧
      (b' = b ↔ ∀ p ∈ b.entries, p.2.reread? = some p.2) := by
  obtain ⟨b', hread, hnames, hget⟩ := exists_ofJson? h
  refine ⟨b', hread _ (Json.Written.read?_compact _), hread _ (Json.Written.read?_pretty _), hnames,
    fun name e he => ?_, eq_iff_rereads hget⟩
  have hfinite := h _ (NameMap.get?_eq_some_iff.1 he)
  obtain ⟨e', he', hclose⟩ := Entry.exists_reread hfinite
  refine ⟨e', ?_, hclose, fun hshort => ?_⟩
  · rw [hget, he, Option.bind_some, he']
  · rw [Entry.reread?_of_short hshort] at he'
    exact (Option.some.inj he').symm

/-- A baseline with a control character, a quote and a backslash in a name, one eleventh, and a zero
below zero: its names and the short numbers come back, one eleventh does not. -/
theorem odd_baseline_reads_back :
    let b : Baseline :=
      .ofList [("a\"\\\x00é", ⟨.ofNat 1 / .ofNat 11, 0⟩), ("", ⟨.ofNat 3, .zero true⟩)]
    b.Finite ∧ ∃ b', ofJson? b.json.compact = some b' ∧ b'.names = b.names ∧
      b'.get? "" = b.get? "" ∧ b' ≠ b := by
  intro b
  have hfinite : b.Finite := by decide +kernel
  obtain ⟨b', hread, -, hnames, hentries, hsame⟩ := reads_back_nearly b hfinite
  refine ⟨hfinite, b', hread, hnames, ?_, fun heq => ?_⟩
  · have hget : b.get? "" = some ⟨.ofNat 3, .zero true⟩ := by decide +kernel
    obtain ⟨e', he', -, hshort⟩ := hentries "" _ hget
    rw [he', hget, hshort (by decide +kernel)]
  · exact absurd (hsame.1 heq) (by decide +kernel)

/-- One eleventh comes back with another last digit, so a baseline that holds it does not come back
as it was. -/
theorem reads_back_changed :
    let b : Baseline := .ofList [("a", ⟨.ofNat 1 / .ofNat 11, 0⟩)]
    b.Finite ∧ ofJson? b.json.compact ≠ some b := by
  decide +kernel

end Baseline

end Ratchet
