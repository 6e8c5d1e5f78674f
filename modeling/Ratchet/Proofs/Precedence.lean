import Ratchet.Proofs.Arguments
import Ratchet.Proofs.Fault

/-!
# Where settings come from

The value of a threshold is the one of its option, else the one of the settings file, else its
default, and its range is checked after that (`settings_precedence`). So a value of the file that is
out of range, or no number, is refused unless an option of the tool stands in for it, and no gate
runs with such a value (`Program.refused_or_carried_out`). Where no option stands in for anything,
the outcome is the one of checking the ranges as the file is read (`Given.settings_of_readText`).
-/

namespace Ratchet

open CommandLine (Given)

variable {tool : Tool} {g : Given} {t : FileTree} {s filed : Settings} {p : Threshold}
  {args : List String} {command : CommandLine.Command}

namespace CommandLine.Given

/-- Each value has one of three sources. -/
theorem exists_stated_of_settings (h : g.settings t = .ok s) :
    ∃ said, Settings.Stated t g.config said ∧
      ∀ p : Threshold, p.of s = ((p.given? g).or (said p)).getD (p.of .default) := by
  obtain ⟨filed, hload, -⟩ := settings_eq_ok.1 h
  obtain ⟨said, hsaid, hvalue⟩ := Settings.exists_stated_of_load hload
  refine ⟨said, hsaid, fun p => ?_⟩
  rw [of_settings h hload, Threshold.merged, hvalue, Option.getD_or]

/-- Nothing but an option in range makes up for a value that is filed out of range. -/
theorem exists_settings_iff_of_filed_outside
    (hload : Settings.loadOrDefault t g.config = .ok filed) (hp : ¬ p.InRange (p.of filed)) :
    (∃ s, g.settings t = .ok s) ↔
      (∃ x, p.given? g = some x ∧ p.InRange x) ∧ ∀ q, q ≠ p → q.InRange (q.merged g filed) := by
  rw [exists_settings_iff]
  constructor
  · rintro ⟨filed', hload', hrange⟩
    cases hload.symm.trans hload'
    refine ⟨?_, fun q _ => hrange q⟩
    have hmerged := hrange p
    cases hgiven : p.given? g with
    | none => exact absurd (Threshold.merged_of_none hgiven filed ▸ hmerged) hp
    | some x => exact ⟨x, rfl, Threshold.merged_of_some hgiven filed ▸ hmerged⟩
  · rintro ⟨⟨x, hgiven, hx⟩, hothers⟩
    refine ⟨filed, hload, fun q => ?_⟩
    by_cases hq : q = p
    · rw [hq, Threshold.merged_of_some hgiven]
      exact hx
    · exact hothers q hq

/-- Without options for thresholds it is the same to check the ranges as the file is read. -/
theorem settings_of_readText (hg : ∀ p : Threshold, p.given? g = none) {path content : String}
    (hconfig : g.config = some path) (hread : t.readText path = .ok content) :
    g.settings t = (Settings.readChecked content).mapError SettingsFlaw.fault := by
  have hload : Settings.loadOrDefault t g.config =
      (Settings.read content).mapError SettingsFlaw.fault := by
    rw [hconfig, Settings.loadOrDefault, Settings.load, hread]
  have hfiled : ∀ filed : Settings, g.override filed = filed := fun filed =>
    Settings.ext_of fun p => (of_override p g filed).trans (Threshold.merged_of_none (hg p) filed)
  rw [settings, hload, Settings.readChecked]
  cases Settings.read content with
  | error flaw => rfl
  | ok filed =>
    show (do
      (g.override filed).check.mapError SettingsFlaw.fault
      pure (g.override filed)) = _
    rw [hfiled]
    show _ = Except.mapError SettingsFlaw.fault (do filed.check; pure filed)
    cases filed.check <;> rfl

end CommandLine.Given

namespace Program

theorem refused_or_carried_out (h : CommandLine.read tool args = .ok (command, g)) (stdin : Bytes)
    (t : FileTree) :
    let e := run tool args stdin t
    (∃ fault, g.settings t = .error fault ∧ e = failed ⟨[settingsContext], .fault fault⟩ [] t ∧
        e.Silent .fatal t) ∨
      ∃ s, g.settings t = .ok s ∧ s.InRange ∧ e = carryOut command g.form s stdin t := by
  intro e
  have he : e = run tool args stdin t := rfl
  rw [run, h] at he
  dsimp only at he
  cases hs : g.settings t with
  | error fault =>
    rw [hs] at he
    rw [he]
    exact .inl ⟨fault, rfl, rfl, silent_of_isFatal (Given.isFatal_of_settings hs) _ _ _⟩
  | ok s =>
    rw [hs] at he
    exact .inr ⟨s, rfl, Given.inRange_of_settings hs, he⟩

end Program

/-- The settings of a tool with the options of `g`. They are there exactly if the file loads and
every value is in range once it is in its place. The value of a threshold is the one of its option,
else what the file says, else the default; where the tool has no option nothing stands in for the
file. A value of the file that is out of range refuses the settings, and is named, unless an option in
range stands in for it. Without options it makes no difference that ranges are checked late.

The command lines of a tool give its options in any combination, with any numbers. Their runs end
before a gate is entered, with nothing printed and nothing written, or enter it with values that are
all in range, and so finite. -/
theorem settings_precedence {tool : Tool} {g : Given}
    (hg : ∀ p : Threshold, tool.sets p = false → p.given? g = none) (t : FileTree) :
    ((∃ s, g.settings t = .ok s) ↔ ∃ filed, Settings.loadOrDefault t g.config = .ok filed ∧
      ∀ p : Threshold, p.InRange ((p.given? g).getD (p.of filed))) ∧
    (∀ s, g.settings t = .ok s → ∃ said, Settings.Stated t g.config said ∧ ∀ p : Threshold,
      p.of s = ((p.given? g).or (said p)).getD (p.of .default)) ∧
    (∀ filed, Settings.loadOrDefault t g.config = .ok filed →
      (∀ s, g.settings t = .ok s → ∀ p : Threshold, p.of s = (p.given? g).getD (p.of filed) ∧
        (tool.sets p = false → p.of s = p.of filed)) ∧
      (∀ p : Threshold, ¬ p.InRange (p.of filed) → ((∃ s, g.settings t = .ok s) ↔
        (∃ x, p.given? g = some x ∧ p.InRange x) ∧
          ∀ q, q ≠ p → q.InRange ((q.given? g).getD (q.of filed)))) ∧
      ∀ fault, g.settings t = .error fault → ∃ p : Threshold,
        let x := (p.given? g).getD (p.of filed)
        ¬ p.InRange x ∧ fault = (p.flaw x).fault) ∧
    ((∀ p : Threshold, p.given? g = none) → ∀ path content, g.config = some path →
      t.readText path = .ok content →
        g.settings t = (Settings.readChecked content).mapError SettingsFlaw.fault) ∧
    (∀ (config : Option String) (x : Threshold → Option Binary64), config ≠ some "" →
      (∀ p, tool.sets p = false → x p = none) →
        ∃ args command given, CommandLine.read tool args = .ok (command, given) ∧
          given.config = config ∧ ∀ p : Threshold, p.given? given = x p) ∧
    ∀ args command given stdin, CommandLine.read tool args = .ok (command, given) →
      (∀ p : Threshold, tool.sets p = false → p.given? given = none) ∧
      let e := Program.run tool args stdin t
      ((∃ fault, given.settings t = .error fault ∧
          e = Program.failed ⟨[Program.settingsContext], .fault fault⟩ [] t ∧ e.Silent .fatal t) ∨
        ∃ s, given.settings t = .ok s ∧
          (∀ p : Threshold, p.InRange (p.of s) ∧ (p.of s).isFinite) ∧
          e = Program.carryOut command given.form s stdin t) := by
  refine ⟨Given.exists_settings_iff, fun s => Given.exists_stated_of_settings,
    fun filed hload => ⟨fun s hs p => ?_,
      fun p => Given.exists_settings_iff_of_filed_outside hload,
      fun fault => Given.exists_flaw_of_settings hload⟩,
    fun hnone path content => Given.settings_of_readText hnone,
    fun config x hconfig hx => CommandLine.exists_read_of_options hconfig hx,
    fun args command given stdin hread => ⟨(CommandLine.suits_of_read hread).thresholds, ?_⟩⟩
  · have hmerged := Given.of_settings hs hload p
    exact ⟨hmerged, fun hp => hmerged.trans (Threshold.merged_of_none (hg p hp) filed)⟩
  · intro e
    rcases Program.refused_or_carried_out hread stdin t with hrefused | ⟨s, hs, hrange, he⟩
    · exact .inl hrefused
    · exact .inr ⟨s, hs, fun p => ⟨hrange p, (hrange p).isFinite⟩, he⟩

/-- A file with a deviation that is no number and a share above one. Options for both stand in for
it, and with one of them the other value is named. A tool without these options refuses the file. -/
theorem settings_with_options_in_place :
    let t := FileTree.ofFiles ["w"]
      [("gate.toml", .ofText "[convergence]\nsigma = nan\nacceptance = 1.2\n")]
    let sigma : Binary64 := .ofDecimal false ⟨25, -1⟩
    let acceptance : Binary64 := .ofDecimal false ⟨9, -1⟩
    let one : Given := { Given.empty with config := some "gate.toml", sigma := some sigma }
    let both : Given := { one with acceptance := some acceptance }
    both.settings t = .ok ⟨⟨sigma, acceptance⟩, .default⟩ ∧
      one.settings t = .error (SettingsFlaw.acceptance (.ofDecimal false ⟨12, -1⟩)).fault ∧
      (Program.run .accept ["--config=gate.toml", "a", "b"] [] t).Silent .fatal t := by
  intro t sigma acceptance one both
  let filed : Settings := ⟨⟨.nan, .ofDecimal false ⟨12, -1⟩⟩, .default⟩
  have hload : Settings.loadOrDefault t (some "gate.toml") = .ok filed :=
    toOption_eq_some.1 (by decide +kernel)
  have hconverge : ∀ g : Given, g.tolerance = none →
      ∀ p : Threshold, Tool.converge.sets p = false → p.given? g = none := by
    intro g hg p hp
    cases p <;> cases hp
    exact hg
  refine ⟨?_, ?_, ?_⟩
  · obtain ⟨hiff, -, hvalue, -⟩ := settings_precedence (hconverge both rfl) t
    have hrange : ∀ p : Threshold, p.InRange ((p.given? both).getD (p.of filed)) := by
      intro p
      cases p <;> decide +kernel
    obtain ⟨s, hs⟩ := hiff.2 ⟨filed, hload, hrange⟩
    have hs' : s = ⟨⟨sigma, acceptance⟩, .default⟩ := Settings.ext_of fun p => by
      rw [((hvalue filed hload).1 s hs p).1]
      cases p <;> decide +kernel
    rw [hs, hs']
  · obtain ⟨-, -, hvalue, -⟩ := settings_precedence (hconverge one rfl) t
    obtain ⟨-, houtside, hnamed⟩ := hvalue filed hload
    have hiff := houtside .acceptance (by decide +kernel)
    cases hs : one.settings t with
    | ok s =>
      obtain ⟨⟨x, hx, -⟩, -⟩ := hiff.1 ⟨s, hs⟩
      cases hx
    | error fault =>
      obtain ⟨p, hp, rfl⟩ := hnamed fault hs
      cases p with
      | sigma => exact absurd (by decide +kernel) hp
      | acceptance =>
        have hfiled : (Threshold.acceptance.given? one).getD (Threshold.acceptance.of filed) =
            .ofDecimal false ⟨12, -1⟩ := by decide +kernel
        rw [hfiled, Threshold.flaw]
      | tolerance => exact absurd (by decide +kernel) hp
  · let given : Given :=
      { Given.empty with operands := ["a", "b"], config := some "gate.toml" }
    have hread : CommandLine.read .accept ["--config=gate.toml", "a", "b"] =
        .ok (.accept "a" "b", given) := toOption_eq_some.1 (by decide +kernel)
    have hgiven : ∀ p : Threshold, Tool.accept.sets p = false → p.given? given = none := by
      intro p hp
      cases p <;> rfl
    obtain ⟨-, -, hvalue, -, -, hrun⟩ := settings_precedence hgiven t
    rcases (hrun _ _ _ [] hread).2 with ⟨_, -, -, hsilent⟩ | ⟨s, hs, hrange, -⟩
    · exact hsilent
    · have hnan : Threshold.sigma.of s = .nan := ((hvalue filed hload).1 s hs .sigma).2 rfl
      cases hnan ▸ (hrange .sigma).2

end Ratchet
