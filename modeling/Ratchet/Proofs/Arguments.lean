import Ratchet.Proofs.NumberText
import Ratchet.Proofs.SettingsFile

/-!
# What arguments can set

The options of a tool set its own thresholds and no others, and paths are not empty
(`Given.Suits`). Every argument keeps to that, whether it is carried out at once or held back
(`State.Suits.readArgument`), and so does a whole command line. Nothing else is kept from being
given: `Given.write` writes a command line that reads as anything that suits the tool, with any
numbers for its thresholds (`read_write`).
-/

namespace Ratchet

open CommandLine

/-- The thresholds that a tool has options for. -/
def Tool.sets : Tool → Threshold → Bool
  | .converge, .sigma | .converge, .acceptance | .accept, .tolerance => true
  | _, _ => false

/-- What the option for a threshold sets. -/
def Threshold.parameter : Threshold → Parameter
  | sigma => .sigma
  | acceptance => .acceptance
  | tolerance => .tolerance

/-- A parameter is no threshold, or one that the tool has an option for. -/
def Tool.Knows (tool : Tool) (q : Parameter) : Prop :=
  ∀ p : Threshold, p.parameter = q → tool.sets p = true

namespace CommandLine

variable {tool : Tool} {g g' : Given} {s s' : State} {q : Parameter} {p : Threshold}
  {name value arg : String} {args : List String}

/-- Nothing is given for thresholds that the tool has no option for, and paths are not empty. -/
structure Given.Suits (g : Given) (tool : Tool) : Prop where
  thresholds : ∀ p : Threshold, tool.sets p = false → p.given? g = none
  config : g.config ≠ some ""
  operands : "" ∉ g.operands

/-- What is given suits the tool, and so does the parameter held back. -/
structure State.Suits (s : State) (tool : Tool) : Prop where
  given : s.given.Suits tool
  held : ∀ h, s.held = some h → tool.Knows h.parameter

theorem readPath_eq_ok {path : String} : readPath value = .ok path ↔ path = value ∧ value ≠ "" := by
  unfold readPath
  split
  · next hempty =>
    have : value = "" := String.isEmpty_iff.1 hempty
    exact iff_of_false (by simp) (by simp [this])
  · next hne =>
    have : value ≠ "" := fun h => hne (String.isEmpty_iff.2 h)
    simp [this, eq_comm]

theorem bind_once_eq_ok {α : Type} {reader : String → Except Stop α} {before : Option α}
    (set : Option α → Given) :
    (once reader before value >>= fun v => .ok (set v)) = .ok g' ↔
      before = none ∧ ∃ a, reader value = .ok a ∧ g' = set (some a) := by
  unfold once
  cases before with
  | some _ => simp [bind, Except.bind]
  | none =>
    rw [bind_eq_ok]
    simp only [map_eq_ok, true_and]
    constructor
    · rintro ⟨_, ⟨a, ha, rfl⟩, h⟩
      exact ⟨a, ha, (Except.ok.inj h).symm⟩
    · rintro ⟨a, ha, rfl⟩
      exact ⟨_, ⟨a, ha, rfl⟩, rfl⟩

/-- What it takes to set a parameter, and what is given then. Operands add up; everything else is
given once. -/
theorem Given.put_eq_ok :
    g.put q value = .ok g' ↔
      match q with
      | .operand => value ≠ "" ∧ g' = { g with operands := g.operands ++ [value] }
      | .config => g.config = none ∧ value ≠ "" ∧ g' = { g with config := some value }
      | .sigma => g.sigma = none ∧ ∃ x, readNumber value = .ok x ∧ g' = { g with sigma := some x }
      | .acceptance =>
        g.acceptance = none ∧ ∃ x, readNumber value = .ok x ∧ g' = { g with acceptance := some x }
      | .tolerance =>
        g.tolerance = none ∧ ∃ x, readNumber value = .ok x ∧ g' = { g with tolerance := some x }
      | .format => g.format = none ∧ ∃ f, readForm value = .ok f ∧ g' = { g with format := some f }
      | .debug => g.debug = false ∧ g' = { g with debug := true } := by
  cases q with
  | operand =>
    rw [put, bind_eq_ok]
    simp only [readPath_eq_ok]
    constructor
    · rintro ⟨_, ⟨rfl, hne⟩, h⟩
      exact ⟨hne, (Except.ok.inj h).symm⟩
    · rintro ⟨hne, rfl⟩
      exact ⟨_, ⟨rfl, hne⟩, rfl⟩
  | config =>
    refine (bind_once_eq_ok fun v => { g with config := v }).trans
      (and_congr_right fun _ => ?_)
    simp only [readPath_eq_ok]
    constructor
    · rintro ⟨_, ⟨rfl, hne⟩, h⟩
      exact ⟨hne, h⟩
    · rintro ⟨hne, h⟩
      exact ⟨_, ⟨rfl, hne⟩, h⟩
  | sigma => exact bind_once_eq_ok fun v => { g with sigma := v }
  | acceptance => exact bind_once_eq_ok fun v => { g with acceptance := v }
  | tolerance => exact bind_once_eq_ok fun v => { g with tolerance := v }
  | format => exact bind_once_eq_ok fun v => { g with format := v }
  | debug =>
    rw [put]
    cases g.debug with
    | true => simp
    | false => simp [eq_comm]

theorem Given.given?_put (h : g.put q value = .ok g') (hp : p.parameter ≠ q) :
    p.given? g' = p.given? g := by
  rw [put_eq_ok] at h
  cases q with
  | operand | debug =>
    obtain ⟨-, rfl⟩ := h
    cases p <;> rfl
  | config =>
    obtain ⟨-, -, rfl⟩ := h
    cases p <;> rfl
  | format =>
    obtain ⟨-, _, -, rfl⟩ := h
    cases p <;> rfl
  | sigma | acceptance | tolerance =>
    obtain ⟨-, _, -, rfl⟩ := h
    cases p <;> simp_all [Threshold.parameter, Threshold.given?]

theorem Given.Suits.put (hg : g.Suits tool) (hq : tool.Knows q) (h : g.put q value = .ok g') :
    g'.Suits tool where
  thresholds p hp := by
    have hne : p.parameter ≠ q := fun heq => by
      rw [hq p heq] at hp
      cases hp
    rw [given?_put h hne]
    exact hg.thresholds p hp
  config := by
    rw [Given.put_eq_ok] at h
    have := hg.config
    cases q <;> grind
  operands := by
    rw [Given.put_eq_ok] at h
    have := hg.operands
    cases q <;> grind

/-- The long names that take a value: two that both tools know, and the keys of the thresholds that
the tool sets. -/
theorem longName?_eq_valued :
    longName? tool name = some (.valued q) ↔
      name = "config" ∧ q = .config ∨ name = "format" ∧ q = .format ∨
        ∃ p : Threshold, tool.sets p = true ∧ name = p.key ∧ q = p.parameter := by
  constructor
  · intro h
    unfold longName? at h
    split at h
    · next hname => cases h; exact .inl ⟨hname, rfl⟩
    split at h
    · next hname => cases h; exact .inr (.inl ⟨hname, rfl⟩)
    iterate 3
      split at h
      · cases h
    cases tool with
    | converge =>
      dsimp only at h
      split at h
      · next hname => cases h; exact .inr (.inr ⟨.sigma, rfl, hname, rfl⟩)
      split at h
      · next hname => cases h; exact .inr (.inr ⟨.acceptance, rfl, hname, rfl⟩)
      · cases h
    | accept =>
      dsimp only at h
      split at h
      · next hname => cases h; exact .inr (.inr ⟨.tolerance, rfl, hname, rfl⟩)
      · cases h
  · rintro (⟨rfl, rfl⟩ | ⟨rfl, rfl⟩ | ⟨p, hp, rfl, rfl⟩)
    · rfl
    · rfl
    · cases tool with
      | converge =>
        cases p with
        | sigma => rfl
        | acceptance => rfl
        | tolerance => cases hp
      | accept =>
        cases p with
        | sigma => cases hp
        | acceptance => cases hp
        | tolerance => rfl

theorem knows_of_common (h : q ∈ [Parameter.operand, .config, .format, .debug]) : tool.Knows q := by
  rintro p rfl
  cases p <;> simp [Threshold.parameter] at h

theorem knows_of_longName? (h : longName? tool name = some (.valued q)) : tool.Knows q := by
  rcases longName?_eq_valued.1 h with ⟨-, rfl⟩ | ⟨-, rfl⟩ | ⟨p, hp, -, rfl⟩
  · exact knows_of_common (by decide)
  · exact knows_of_common (by decide)
  · intro p' hp'
    cases p <;> cases p' <;> cases hp' <;> exact hp

/-! ## All arguments -/

theorem State.Suits.settle (hs : s.Suits tool) (h : s.settle = .ok g) : g.Suits tool := by
  unfold State.settle at h
  split at h
  · cases h; exact hs.given
  · next q value hheld => exact hs.given.put (hs.held _ hheld) h
  · cases h

theorem State.Suits.readOperand (hs : s.Suits tool) (h : readOperand tool s arg = .ok s') :
    s'.Suits tool := by
  unfold CommandLine.readOperand at h
  split at h
  · obtain ⟨given, hgiven, h⟩ := bind_eq_ok.1 h
    cases h
    refine ⟨hs.settle hgiven, fun _ hheld => ?_⟩
    cases hheld
    exact knows_of_common (q := .operand) (by decide)
  · cases h

theorem State.Suits.readLong {attached : Option String} (hs : s.Suits tool)
    (h : readLong tool s name attached = .ok s') : s'.Suits tool := by
  unfold CommandLine.readLong at h
  split at h
  · cases h
  · next q value hname =>
    obtain ⟨given, hgiven, h⟩ := bind_eq_ok.1 h
    obtain ⟨given', hgiven', h⟩ := bind_eq_ok.1 h
    cases h
    refine ⟨(hs.settle hgiven).put (knows_of_longName? hname) hgiven', fun _ hheld => ?_⟩
    cases hheld
  · next q hname =>
    obtain ⟨given, hgiven, h⟩ := bind_eq_ok.1 h
    cases h
    refine ⟨hs.settle hgiven, fun _ hheld => ?_⟩
    cases hheld
    exact knows_of_longName? hname
  · cases h
  · obtain ⟨given, hgiven, h⟩ := bind_eq_ok.1 h
    obtain ⟨given', hgiven', h⟩ := bind_eq_ok.1 h
    cases h
    refine ⟨(hs.settle hgiven).put (knows_of_common (by decide)) hgiven', fun _ hheld => ?_⟩
    cases hheld
  · obtain ⟨_, -, h⟩ := bind_eq_ok.1 h
    cases h
  · obtain ⟨_, -, h⟩ := bind_eq_ok.1 h
    cases h

/-- No short argument goes on to a run. -/
theorem not_readShort_eq_ok {letter : Char} : ¬ readShort s letter = .ok s' := by
  intro h
  unfold readShort at h
  split at h
  · obtain ⟨_, -, h⟩ := bind_eq_ok.1 h
    cases h
  · split at h
    · obtain ⟨_, -, h⟩ := bind_eq_ok.1 h
      cases h
    · cases h

theorem State.Suits.readArgument (hs : s.Suits tool) (h : readArgument tool s arg = .ok s') :
    s'.Suits tool := by
  unfold CommandLine.readArgument at h
  split at h
  · exact hs.readOperand h
  · split at h
    · cases h
      exact ⟨hs.given, hs.held⟩
    · exact hs.readLong h
    · exact absurd h not_readShort_eq_ok
    · split at h
      · next q hheld =>
        cases h
        refine ⟨hs.given, fun _ h' => ?_⟩
        cases h'
        exact hs.held ⟨q, none⟩ hheld
      · exact hs.readOperand h

theorem State.Suits.readArguments (hs : s.Suits tool) (h : readArguments tool s args = .ok s') :
    s'.Suits tool := by
  induction args generalizing s with
  | nil => cases h; exact hs
  | cons arg rest ih =>
    rw [CommandLine.readArguments] at h
    split at h
    · next hstep => exact ih (hs.readArgument hstep) h
    · cases h

theorem suits_start (tool : Tool) : State.start.Suits tool where
  given := ⟨fun p _ => by cases p <;> rfl, by decide, by decide⟩
  held := by
    intro h hheld
    cases hheld

theorem suits_of_read {command : Command} (h : read tool args = .ok (command, g)) :
    g.Suits tool := by
  obtain ⟨s, hs, h⟩ := bind_eq_ok.1 h
  obtain ⟨settled, hsettled, h⟩ := bind_eq_ok.1 h
  split at h
  · cases h
    exact ((suits_start tool).readArguments hs).settle hsettled
  · cases h

/-! ## Writing a command line -/

def written (name value : String) : String := "--" ++ name ++ "=" ++ value

def writtenOption {α : Type} (name : String) (text : α → String) (given : Option α) :
    List String :=
  (given.map fun a => written name (text a)).toList

/-- The options for what is given, each with its value. -/
def Given.writeOptions (g : Given) : List String :=
  writtenOption "config" id g.config ++ writtenOption "sigma" Binary64.plain g.sigma ++
    writtenOption "acceptance" Binary64.plain g.acceptance ++
    writtenOption "tolerance" Binary64.plain g.tolerance ++
    writtenOption "format" ReportForm.name g.format ++ (if g.debug then ["--debug"] else [])

/-- A command line for what is given: the options, and the operands behind two dashes. -/
def Given.write (g : Given) : List String := g.writeOptions ++ "--" :: g.operands

theorem readArguments_append (s : State) (front back : List String) :
    readArguments tool s (front ++ back) =
      readArguments tool s front >>= fun s => readArguments tool s back := by
  induction front generalizing s with
  | nil => rfl
  | cons arg rest ih =>
    rw [List.cons_append, readArguments, readArguments]
    cases readArgument tool s arg with
    | ok s => exact ih s
    | error stop => rfl

theorem splitLong_written (hfree : '=' ∉ name.toList) :
    splitLong (name.toList ++ '=' :: value.toList) = (name, some value) := by
  have hkept : ∀ c ∈ name.toList, decide (c ≠ '=') = true := fun c hc =>
    decide_eq_true fun heq => hfree (heq ▸ hc)
  rw [splitLong, List.dropWhile_append_of_pos hkept, List.takeWhile_append_of_pos hkept]
  simp

theorem readArgument_written (hfree : '=' ∉ name.toList)
    (hname : longName? tool name = some (.valued q)) (hput : g.put q value = .ok g') :
    readArgument tool ⟨g, none, false⟩ (written name value) = .ok ⟨g', none, false⟩ := by
  have hlist : (written name value).toList =
      '-' :: '-' :: (name.toList ++ '=' :: value.toList) := by
    simp [written]
  have hlong : readLong tool ⟨g, none, false⟩ name (some value) = .ok ⟨g', none, false⟩ := by
    rw [readLong.eq_def, hname]
    show (g.put q value >>= fun given => .ok (⟨given, none, false⟩ : State)) = _
    rw [hput, ok_bind]
  unfold readArgument
  rw [hlist]
  cases hbody : name.toList ++ '=' :: value.toList with
  | nil => simp at hbody
  | cons c rest =>
    show readLong tool _ (splitLong (c :: rest)).1 (splitLong (c :: rest)).2 = _
    rw [← hbody, splitLong_written hfree]
    exact hlong

theorem readNumber_plain (x : Binary64) : readNumber x.plain = .ok x := by
  rw [readNumber, Binary64.read?_plain]

theorem readForm_name (f : ReportForm) : readForm f.name = .ok f := by
  cases f <;> rfl

theorem Given.Suits.sets (hg : g.Suits tool) {x : Binary64} (h : p.given? g = some x) :
    tool.sets p = true := by
  cases hp : tool.sets p with
  | true => rfl
  | false => cases (hg.thresholds p hp).symm.trans h

theorem readArguments_writtenOption {α : Type} {text : α → String} {given : Option α}
    (hfree : '=' ∉ name.toList) (hnone : given = none → g' = g)
    (hsome : ∀ a, given = some a →
      longName? tool name = some (.valued q) ∧ g.put q (text a) = .ok g') :
    readArguments tool ⟨g, none, false⟩ (writtenOption name text given) =
      .ok ⟨g', none, false⟩ := by
  cases given with
  | none =>
    rw [hnone rfl]
    rfl
  | some a =>
    obtain ⟨hname, hput⟩ := hsome a rfl
    show readArguments tool _ [written name (text a)] = _
    rw [readArguments, readArgument_written hfree hname hput]
    rfl

/-- Gives a threshold a value, or leaves it open. -/
def Given.set (g : Given) (x : Option Binary64) : Threshold → Given
  | .sigma => { g with sigma := x }
  | .acceptance => { g with acceptance := x }
  | .tolerance => { g with tolerance := x }

theorem readArguments_threshold (p : Threshold) {x : Option Binary64} (hnone : p.given? g = none)
    (hsets : ∀ v, x = some v → tool.sets p = true) :
    readArguments tool ⟨g, none, false⟩ (writtenOption p.key Binary64.plain x) =
      .ok ⟨g.set x p, none, false⟩ := by
  refine readArguments_writtenOption (q := p.parameter) ?_ ?_ ?_
  · cases p <;> decide
  · rintro rfl
    cases p <;> cases g <;> cases hnone <;> rfl
  · rintro v rfl
    refine ⟨longName?_eq_valued.2 (.inr (.inr ⟨p, hsets v rfl, rfl, rfl⟩)), ?_⟩
    rw [Given.put_eq_ok]
    cases p <;> exact ⟨hnone, v, readNumber_plain v, rfl⟩

theorem readArguments_writeOptions (hg : g.Suits tool) :
    readArguments tool .start g.writeOptions = .ok ⟨{ g with operands := [] }, none, false⟩ := by
  obtain ⟨operands, config, sigma, acceptance, tolerance, format, debug⟩ := g
  -- The options are carried out from left to right, each on what the ones before it have given.
  have hconfig : readArguments tool .start (writtenOption "config" id config) =
      .ok ⟨⟨[], config, none, none, none, none, false⟩, none, false⟩ := by
    refine readArguments_writtenOption (q := .config) (by decide) (by rintro rfl; rfl) ?_
    rintro path rfl
    have hne : path ≠ "" := fun h => hg.config (congrArg some h)
    exact ⟨rfl, Given.put_eq_ok.2 ⟨rfl, hne, rfl⟩⟩
  have hsigma : readArguments tool ⟨⟨[], config, none, none, none, none, false⟩, none, false⟩
      (writtenOption "sigma" Binary64.plain sigma) =
        .ok ⟨⟨[], config, sigma, none, none, none, false⟩, none, false⟩ :=
    readArguments_threshold .sigma rfl fun _ hx => hg.sets hx
  have hacceptance : readArguments tool ⟨⟨[], config, sigma, none, none, none, false⟩, none, false⟩
      (writtenOption "acceptance" Binary64.plain acceptance) =
        .ok ⟨⟨[], config, sigma, acceptance, none, none, false⟩, none, false⟩ :=
    readArguments_threshold .acceptance rfl fun _ hx => hg.sets hx
  have htolerance : readArguments tool
      ⟨⟨[], config, sigma, acceptance, none, none, false⟩, none, false⟩
      (writtenOption "tolerance" Binary64.plain tolerance) =
        .ok ⟨⟨[], config, sigma, acceptance, tolerance, none, false⟩, none, false⟩ :=
    readArguments_threshold .tolerance rfl fun _ hx => hg.sets hx
  have hformat : readArguments tool
      ⟨⟨[], config, sigma, acceptance, tolerance, none, false⟩, none, false⟩
      (writtenOption "format" ReportForm.name format) =
        .ok ⟨⟨[], config, sigma, acceptance, tolerance, format, false⟩, none, false⟩ := by
    refine readArguments_writtenOption (q := .format) (by decide) (by rintro rfl; rfl) ?_
    rintro f rfl
    exact ⟨rfl, Given.put_eq_ok.2 ⟨rfl, f, readForm_name f, rfl⟩⟩
  have hdebug : readArguments tool
      ⟨⟨[], config, sigma, acceptance, tolerance, format, false⟩, none, false⟩
      (if debug then ["--debug"] else []) =
        .ok ⟨⟨[], config, sigma, acceptance, tolerance, format, debug⟩, none, false⟩ := by
    cases debug <;> rfl
  simp only [Given.writeOptions, readArguments_append, hconfig, hsigma, hacceptance, htolerance,
    hformat, hdebug, ok_bind]

theorem length_operands_of_settle (h : s.settle = .ok g) :
    g.operands.length = s.operandCount := by
  unfold State.settle at h
  unfold State.operandCount
  split at h
  · next hheld => cases h; rw [hheld]; rfl
  · next q value hheld =>
    rw [Given.put_eq_ok] at h
    rw [hheld]
    cases q <;> grind
  · cases h

/-- Operands behind two dashes. The last one stays held back. -/
theorem readArguments_operands {operands : List String} (honly : s.operandsOnly = true)
    (hsettle : s.settle = .ok g) (hne : "" ∉ operands)
    (hcount : g.operands.length + operands.length ≤ tool.operands) :
    ∃ s', readArguments tool s operands = .ok s' ∧
      s'.settle = .ok { g with operands := g.operands ++ operands } := by
  induction operands generalizing s g with
  | nil => exact ⟨s, rfl, by rw [hsettle, List.append_nil]⟩
  | cons operand rest ih =>
    rw [List.length_cons] at hcount
    have hbelow : s.operandCount < tool.operands := by
      rw [← length_operands_of_settle hsettle]
      omega
    have hput : g.put .operand operand = .ok { g with operands := g.operands ++ [operand] } :=
      Given.put_eq_ok.2 ⟨fun h => hne (h ▸ List.mem_cons_self), rfl⟩
    have hread : readArgument tool s operand =
        .ok { s with given := g, held := some ⟨.operand, some operand⟩ } := by
      rw [readArgument, if_pos honly, readOperand, if_pos hbelow, hsettle]
      rfl
    have hfree : "" ∉ rest := fun h => hne (List.mem_cons_of_mem _ h)
    have hcount' : (g.operands ++ [operand]).length + rest.length ≤ tool.operands := by
      rw [List.length_append, List.length_singleton]
      omega
    obtain ⟨s', hs', hsettled⟩ :=
      ih (s := { s with given := g, held := some ⟨.operand, some operand⟩ })
        honly hput hfree hcount'
    refine ⟨s', ?_, ?_⟩
    · rw [readArguments, hread]
      exact hs'
    · rw [hsettled]
      simp

theorem exists_ofOperands?_iff {operands : List String} :
    (∃ command, Command.ofOperands? tool operands = some command) ↔
      operands.length = tool.operands := by
  cases tool with
  | converge =>
    rcases operands with _ | ⟨output, _ | ⟨_, _⟩⟩ <;> simp [Command.ofOperands?, Tool.operands]
  | accept =>
    rcases operands with _ | ⟨reference, _ | ⟨checked, _ | ⟨_, _⟩⟩⟩ <;>
      simp [Command.ofOperands?, Tool.operands]

/-- What is written for anything that suits a tool reads as that. -/
theorem read_write (hg : g.Suits tool) (hlength : g.operands.length = tool.operands) :
    ∃ command, read tool g.write = .ok (command, g) := by
  have hdashes : readArgument tool ⟨{ g with operands := [] }, none, false⟩ "--" =
      .ok ⟨{ g with operands := [] }, none, true⟩ := rfl
  have hcount : ([] : List String).length + g.operands.length ≤ tool.operands := by simp [hlength]
  obtain ⟨s, hs, hsettle⟩ : ∃ s, readArguments tool ⟨{ g with operands := [] }, none, true⟩
      g.operands = .ok s ∧ s.settle = .ok g :=
    readArguments_operands (g := { g with operands := [] }) rfl rfl hg.operands hcount
  have hall : readArguments tool .start g.write = .ok s := by
    rw [Given.write, readArguments_append, readArguments_writeOptions hg, ok_bind, readArguments,
      hdashes]
    exact hs
  obtain ⟨command, hcommand⟩ := exists_ofOperands?_iff.2 hlength
  refine ⟨command, ?_⟩
  rw [read, hall, ok_bind, hsettle, ok_bind, hcommand]
  rfl

/-- The command lines of a tool give as many operands as the tool takes, and with them anything that
suits it. -/
theorem exists_read_iff :
    (∃ args command, read tool args = .ok (command, g)) ↔
      g.Suits tool ∧ g.operands.length = tool.operands := by
  constructor
  · rintro ⟨args, command, h⟩
    exact ⟨suits_of_read h, exists_ofOperands?_iff.1 ⟨command, ofOperands?_of_read h⟩⟩
  · rintro ⟨hg, hlength⟩
    exact ⟨g.write, read_write hg hlength⟩

theorem exists_read_of_options {config : Option String} (hconfig : config ≠ some "")
    {x : Threshold → Option Binary64} (hx : ∀ p, tool.sets p = false → x p = none) :
    ∃ args command given, read tool args = .ok (command, given) ∧ given.config = config ∧
      ∀ p : Threshold, p.given? given = x p := by
  let given : Given :=
    ⟨List.replicate tool.operands "-", config, x .sigma, x .acceptance, x .tolerance, none, false⟩
  have hvalue : ∀ p : Threshold, p.given? given = x p := fun p => by cases p <;> rfl
  have hsuits : given.Suits tool :=
    ⟨fun p hp => (hvalue p).trans (hx p hp), hconfig, by simp [given, List.mem_replicate]⟩
  obtain ⟨args, command, hread⟩ := exists_read_iff.2 ⟨hsuits, List.length_replicate⟩
  exact ⟨args, command, given, hread, rfl, hvalue⟩

end CommandLine

end Ratchet
