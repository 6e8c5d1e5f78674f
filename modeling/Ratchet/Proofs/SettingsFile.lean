import Mathlib.Tactic.Choose
import Ratchet.Proofs.Thresholds

/-!
# What a settings file says

A settings file says something about a threshold if its document has an item for it: in the table of
the threshold under its key, or at its place if the table is an array (`Threshold.item?`). In a file
that loads every such item is a number, and a threshold that the file is silent about has its
default (`Settings.exists_stated_of_load`). Without a file nothing is said.
-/

namespace Ratchet

namespace Toml

/-- What an item says, if there is one: a number. -/
inductive Reads : Option Item → Option Binary64 → Prop where
  | absent : Reads none none
  | number {item : Item} {x : Binary64} (h : item.number? = some x) : Reads (some item) (some x)

namespace Fields

/-- The item under a key, or at the place of the key where the keys are left out. -/
def item? (key : String) (place : Nat) : Fields → Option Item
  | named entries => Entries.get? key entries
  | ordered items => items[place]?

variable {known : List (String × Binary64)} {xs : List Binary64} {i : Nat} {key : String}
  {value : Binary64}

theorem numbers?_named {entries : Entries} (h : (named entries).numbers? known = some xs)
    (hi : known[i]? = some (key, value)) :
    ∃ said, Reads (Entries.get? key entries) said ∧ xs[i]? = some (said.getD value) := by
  obtain ⟨-, -, h⟩ := Option.bind_eq_some_iff.1 h
  obtain ⟨x, hx, hxs⟩ := getElem?_of_mapM h hi
  dsimp only at hx
  split at hx
  · next hnone =>
    cases hx
    exact ⟨none, hnone ▸ .absent, hxs⟩
  · next item hitem => exact ⟨some x, hitem ▸ .number hx, hxs⟩

theorem numbers?_ordered {items : List Item} (h : (ordered items).numbers? known = some xs)
    (hi : known[i]? = some (key, value)) :
    ∃ said, Reads items[i]? said ∧ xs[i]? = some (said.getD value) := by
  obtain ⟨given, hgiven, h⟩ := Option.bind_eq_some_iff.1 h
  cases h
  have hlt : i < known.length := (List.getElem?_eq_some_iff.1 hi).1
  have hlength := length_of_mapM hgiven
  rw [List.length_take] at hlength
  cases hitem : items[i]? with
  | some item =>
    have htaken : (items.take known.length)[i]? = some item := by
      rw [List.getElem?_take_of_lt hlt, hitem]
    obtain ⟨x, hx, hgivenx⟩ := getElem?_of_mapM hgiven htaken
    have hbound : i < given.length := (List.getElem?_eq_some_iff.1 hgivenx).1
    exact ⟨some x, .number hx, (List.getElem?_append_left hbound).trans hgivenx⟩
  | none =>
    have hbound : given.length ≤ i := by
      have := List.getElem?_eq_none_iff.1 hitem
      omega
    refine ⟨none, .absent, ?_⟩
    rw [List.getElem?_append_right hbound, List.getElem?_map, List.getElem?_drop,
      Nat.add_sub_cancel' hbound, hi]
    rfl

/-- Every number is the one that stands there, or the value that its key has when left out. -/
theorem numbers?_eq_some {fields : Fields} (h : fields.numbers? known = some xs)
    (hi : known[i]? = some (key, value)) :
    ∃ said, Reads (fields.item? key i) said ∧ xs[i]? = some (said.getD value) := by
  cases fields with
  | named entries => exact numbers?_named h hi
  | ordered items => exact numbers?_ordered h hi

end Fields

end Toml

namespace Threshold

def table : Threshold → String
  | sigma | acceptance => "convergence"
  | tolerance => "regression"

/-- Its key there, which is also the name of its option. -/
def key : Threshold → String
  | sigma => "sigma"
  | acceptance => "acceptance"
  | tolerance => "tolerance"

/-- Its place there where keys are left out. -/
def place : Threshold → Nat
  | sigma | tolerance => 0
  | acceptance => 1

/-- What a document has for a threshold. -/
def item? (p : Threshold) (doc : Toml.Entries) : Option Toml.Item := do
  let fields ← (← Toml.Entries.get? p.table doc).fields?
  fields.item? p.key p.place

end Threshold

namespace Settings

open Toml (Reads)

variable {t : FileTree} {s : Settings} {doc : Toml.Entries} {config : Option String}
  {said : Threshold → Option Binary64}

/-- What is said about the thresholds where settings come from: nothing without a file, and what the
document of a file has for them. -/
inductive Stated (t : FileTree) : Option String → (Threshold → Option Binary64) → Prop where
  | noFile : Stated t none fun _ => none
  | file {path content : String} {doc : Toml.Entries} {said : Threshold → Option Binary64}
      (hread : t.readText path = .ok content) (hdoc : Toml.read? content = some doc)
      (hsaid : ∀ p : Threshold, Reads (p.item? doc) (said p)) : Stated t (some path) said

theorem read_eq_ok {content : String} :
    read content = .ok s ↔ ∃ doc, Toml.read? content = some doc ∧ ofEntries? doc = some s := by
  rw [← Option.bind_eq_some_iff, read]
  split
  · next hs => rw [hs]; simp
  · next hnone => rw [hnone]; simp

theorem load_eq_ok {path : String} :
    load t path = .ok s ↔ ∃ content, t.readText path = .ok content ∧ read content = .ok s := by
  rw [load]
  split
  · next hread => simp [hread]
  · next hread => simp [hread]
  · next content hread => simp [hread, mapError_eq_ok]

/-- What a table makes of its fields, or what stands for it when it is left out. -/
def ofTable? {α : Type} (table : String) (absent : α) (ofFields? : Toml.Fields → Option α)
    (doc : Toml.Entries) : Option α :=
  match Toml.Entries.get? table doc with
  | none => some absent
  | some item => item.fields?.bind ofFields?

theorem ofTable?_of_ofEntries? (h : ofEntries? doc = some s) :
    ofTable? "convergence" .default ConvergenceSettings.ofFields? doc = some s.convergence ∧
      ofTable? "regression" .default RegressionSettings.ofFields? doc = some s.regression := by
  obtain ⟨-, -, h⟩ := Option.bind_eq_some_iff.1 h
  have htables : ((ofTable? "convergence" .default ConvergenceSettings.ofFields? doc).bind fun c =>
      (ofTable? "regression" .default RegressionSettings.ofFields? doc).bind fun r =>
        some ⟨c, r⟩) = some s := by
    rw [← h]
    unfold ofTable?
    cases Toml.Entries.get? "convergence" doc <;> cases Toml.Entries.get? "regression" doc <;> rfl
  obtain ⟨convergence, hconvergence, htables⟩ := Option.bind_eq_some_iff.1 htables
  obtain ⟨regression, hregression, htables⟩ := Option.bind_eq_some_iff.1 htables
  cases htables
  exact ⟨hconvergence, hregression⟩

/-- A table that keeps to its fields makes the document keep to its items. -/
theorem exists_reads_of_ofTable? {α : Type} {absent c : α} {ofFields? : Toml.Fields → Option α}
    (p : Threshold) (h : ofTable? p.table absent ofFields? doc = some c)
    (value : α → Binary64)
    (hfields : ∀ {fields}, ofFields? fields = some c →
      ∃ said, Reads (fields.item? p.key p.place) said ∧ value c = said.getD (value absent)) :
    ∃ said, Reads (p.item? doc) said ∧ value c = said.getD (value absent) := by
  unfold ofTable? at h
  unfold Threshold.item?
  cases hitem : Toml.Entries.get? p.table doc with
  | none =>
    rw [hitem] at h
    cases h
    exact ⟨none, .absent, rfl⟩
  | some item =>
    rw [hitem] at h
    obtain ⟨fields, hf, h⟩ := Option.bind_eq_some_iff.1 h
    obtain ⟨said, hsaid, hvalue⟩ := hfields h
    refine ⟨said, ?_, hvalue⟩
    show Reads (item.fields?.bind fun fields => fields.item? p.key p.place) said
    rwa [hf]

theorem numbers?_of_convergence {fields : Toml.Fields} {c : ConvergenceSettings}
    (h : ConvergenceSettings.ofFields? fields = some c) :
    fields.numbers? [("sigma", ConvergenceSettings.default.sigma),
      ("acceptance", ConvergenceSettings.default.acceptance)] = some [c.sigma, c.acceptance] := by
  obtain ⟨xs, hxs, h⟩ := Option.bind_eq_some_iff.1 h
  split at h
  · cases h; exact hxs
  · cases h

theorem numbers?_of_regression {fields : Toml.Fields} {r : RegressionSettings}
    (h : RegressionSettings.ofFields? fields = some r) :
    fields.numbers? [("tolerance", RegressionSettings.default.tolerance)] = some [r.tolerance] := by
  obtain ⟨xs, hxs, h⟩ := Option.bind_eq_some_iff.1 h
  split at h
  · cases h; exact hxs
  · cases h

theorem exists_reads_of_ofEntries? (h : ofEntries? doc = some s) (p : Threshold) :
    ∃ x, Reads (p.item? doc) x ∧ p.of s = x.getD (p.of default) := by
  obtain ⟨hconvergence, hregression⟩ := ofTable?_of_ofEntries? h
  cases p with
  | sigma =>
    refine exists_reads_of_ofTable? .sigma hconvergence (·.sigma) fun hfields => ?_
    obtain ⟨said, hsaid, hvalue⟩ :=
      Toml.Fields.numbers?_eq_some (numbers?_of_convergence hfields) (i := 0) rfl
    exact ⟨said, hsaid, Option.some.inj hvalue⟩
  | acceptance =>
    refine exists_reads_of_ofTable? .acceptance hconvergence (·.acceptance) fun hfields => ?_
    obtain ⟨said, hsaid, hvalue⟩ :=
      Toml.Fields.numbers?_eq_some (numbers?_of_convergence hfields) (i := 1) rfl
    exact ⟨said, hsaid, Option.some.inj hvalue⟩
  | tolerance =>
    refine exists_reads_of_ofTable? .tolerance hregression (·.tolerance) fun hfields => ?_
    obtain ⟨said, hsaid, hvalue⟩ :=
      Toml.Fields.numbers?_eq_some (numbers?_of_regression hfields) (i := 0) rfl
    exact ⟨said, hsaid, Option.some.inj hvalue⟩

/-- What a file that loads is silent about has its default. -/
theorem exists_stated_of_load (h : loadOrDefault t config = .ok s) :
    ∃ said, Stated t config said ∧ ∀ p : Threshold, p.of s = (said p).getD (p.of default) := by
  cases config with
  | none =>
    obtain rfl : default = s := Except.ok.inj h
    exact ⟨_, .noFile, fun _ => rfl⟩
  | some path =>
    obtain ⟨content, hread, hs⟩ := load_eq_ok.1 h
    obtain ⟨doc, hdoc, hs⟩ := read_eq_ok.1 hs
    choose said hsaid hvalue using exists_reads_of_ofEntries? hs
    exact ⟨said, .file hread hdoc hsaid, hvalue⟩

end Settings

end Ratchet
