import Ratchet.Proofs.GateStep

/-!
# Saving takes effect as a whole or not at all

A file is not written where it will stand. `FileTree.replaceInSteps` is how it gets there: an empty
file is made beside the target under a name of its own, takes the content, and moves once the target
has been looked at. The tree changes from the first step on, and later steps can still fail; then
the new file is taken away. `replaceInSteps_eq` says that all of this comes to what
`FileTree.replace` does at once, whatever the name is, as long as nothing else has it: no path that
is followed on the way goes through a place with that name (`follow_set_of_not_mem`).

So a baseline that is saved stands under its path with its whole text and loads again, nothing else
having changed, and one that is not has left no trace (`Baseline.save_all_or_nothing`).
-/

namespace Ratchet

namespace FileTree

variable {t : FileTree} {p q : Place} {path fresh : String} {content : Bytes} {n : Node}

/-- Moves the node at one place to another, in place of what stands there. -/
def move (t : FileTree) (p q : Place) : FileTree :=
  match t.get? p with
  | some n => (t.erase p).set q n
  | none => t

/-- Where a file comes into being under a name of its own, beside the target of a path. -/
def placeBeside (t : FileTree) (path fresh : String) : Except IoKind Place :=
  (t.locate (Path.beside t.here path)).map fun p => p.dropLast ++ [fresh]

/-- Puts a file under a path step by step. A failing step is the last one; the file that was made
until then is taken away. Once a file could be made beside its target it takes any content and any
mode, so writing, flushing and setting the permissions are no steps that fail. -/
def replaceInSteps (t : FileTree) (path fresh : String) (content : Bytes) :
    Except IoKind Unit × FileTree :=
  match t.placeBeside path fresh with
  | .error kind => (.error kind, t)
  | .ok p =>
    let created := t.set p (.file [])
    let written := created.set p (.file content)
    match written.look path with
    | .error kind => (.error kind, written.erase p)
    | .ok _ =>
      match written.entry path with
      | .error kind => (.error kind, written.erase p)
      | .ok target => (.ok (), written.move p target)

/-- A name for a file that neither the tree nor the path has anywhere. -/
structure IsFresh (t : FileTree) (path fresh : String) : Prop where
  noDot : fresh ≠ "."
  here : fresh ∉ t.here
  steps : fresh ∉ Path.steps path
  nodes : ∀ e ∈ t.nodes, fresh ∉ e.1

/-! ## A name that nothing has -/

/-- Names that are long enough are new. -/
theorem exists_isFresh (t : FileTree) (path : String) : ∃ fresh, t.IsFresh path fresh := by
  let names := "." :: (t.here ++ Path.steps path ++ t.nodes.flatMap Prod.fst)
  let longest := (names.map String.length).max (by simp [names])
  let fresh := String.ofList (List.replicate (longest + 1) 'n')
  have hlength : fresh.length = longest + 1 := by
    rw [String.length_ofList, List.length_replicate]
  have hnew : fresh ∉ names := fun hmem => by
    have hle : fresh.length ≤ longest :=
      List.le_max_of_mem (List.mem_map_of_mem (f := String.length) hmem)
    omega
  simp only [names, List.mem_cons, List.mem_append, not_or] at hnew
  exact ⟨fresh, hnew.1, hnew.2.1.1, hnew.2.1.2,
    fun e he hmem => hnew.2.2 (List.mem_flatMap.2 ⟨e, he, hmem⟩)⟩

theorem not_mem_next {step : String} (hp : fresh ∉ p) (hstep : fresh ≠ step) :
    fresh ∉ Path.next p step := by
  unfold Path.next
  split
  · exact hp
  · split
    · exact fun h => hp (List.dropLast_subset _ h)
    · simp [hp, hstep]

/-- Paths do not meet a name that they do not have. -/
theorem follow_set_of_not_mem {steps : List String} {from_ : Place} (hp : fresh ∈ p)
    (hfrom : fresh ∉ from_) (hsteps : fresh ∉ steps) :
    (t.set p n).follow from_ steps = t.follow from_ steps := by
  have hne : p ≠ [] := List.ne_nil_of_mem hp
  induction steps generalizing from_ with
  | nil => rfl
  | cons step rest ih =>
    obtain ⟨hstep, hrest⟩ := not_or.1 (mt List.mem_cons.2 hsteps)
    have hplace : from_ ≠ p := fun e => hfrom (e ▸ hp)
    rw [follow, follow, get?_set hne, if_neg hplace]
    split
    · rfl
    · rfl
    · split
      · rfl
      · exact ih (not_mem_next hfrom hstep) hrest

theorem not_mem_of_follow {steps : List String} {from_ : Place} (hfrom : fresh ∉ from_)
    (hsteps : fresh ∉ steps) (h : t.follow from_ steps = .ok q) : fresh ∉ q := by
  induction steps generalizing from_ with
  | nil =>
    cases h
    exact hfrom
  | cons step rest ih =>
    obtain ⟨hstep, hrest⟩ := not_or.1 (mt List.mem_cons.2 hsteps)
    rw [follow] at h
    split at h
    · cases h
    · cases h
    · split at h
      · cases h
      · exact ih (not_mem_next hfrom hstep) hrest h

theorem get?_set_of_not_mem (hp : fresh ∈ p) (n : Node) (hq : fresh ∉ q) :
    (t.set p n).get? q = t.get? q := by
  have hne : q ≠ p := fun e => hq (e ▸ hp)
  rw [get?_set (List.ne_nil_of_mem hp), if_neg hne]

section Fresh
variable (hfresh : t.IsFresh path fresh) (hp : fresh ∈ p)
include hfresh

theorem not_mem_start : fresh ∉ Path.start t.here path := by
  unfold Path.start
  split
  · exact List.not_mem_nil
  · exact hfresh.here

theorem not_mem_dropLast_steps : fresh ∉ (Path.steps path).dropLast :=
  fun h => hfresh.steps (List.dropLast_subset _ h)

include hp

/-- The place of the new file is one that the tree has not. -/
theorem ne_of_mem_nodes {e : Place × Node} (he : e ∈ t.nodes) : e.1 ≠ p :=
  fun h => hfresh.nodes e he (h ▸ hp)

theorem erase_of_fresh : t.erase p = t := by
  have hall : ∀ e ∈ t.nodes, decide (e.1 ≠ p) = true := fun e he =>
    decide_eq_true (ne_of_mem_nodes hfresh hp he)
  rw [erase, List.filter_eq_self.2 hall]

/-- What was put there can be taken away without a trace. -/
theorem erase_set_of_fresh (n : Node) : (t.set p n).erase p = t := by
  have hnodes : (t.set p n).nodes = (p, n) :: t.nodes := by rw [set, erase_of_fresh hfresh hp]
  have hhere : (t.set p n).erase p = t.erase p := by
    rw [erase, hnodes, List.filter_cons_of_neg (by simp)]
    rfl
  rw [hhere, erase_of_fresh hfresh hp]

theorem set_set_of_fresh (n n' : Node) : (t.set p n).set p n' = t.set p n' := by
  have hnodes : ((t.set p n).erase p).nodes = (t.erase p).nodes := by
    rw [erase_set_of_fresh hfresh hp, erase_of_fresh hfresh hp]
  exact congrArg (fun nodes => FileTree.mk t.here ((p, n') :: nodes)) hnodes

theorem move_set_of_fresh (n : Node) (q : Place) : (t.set p n).move p q = t.set q n := by
  rw [move, get?_set (List.ne_nil_of_mem hp), if_pos rfl]
  exact congrArg (fun t => set t q n) (erase_set_of_fresh hfresh hp n)

theorem locate_set_of_fresh (n : Node) : (t.set p n).locate path = t.locate path := by
  have hsteps : fresh ∉ Path.steps path ++ (if Path.endsInSlash path then ["."] else []) := by
    refine fun h => (List.mem_append.1 h).elim hfresh.steps fun h => hfresh.noDot ?_
    split at h
    · exact List.mem_singleton.1 h
    · cases h
  have hfollow := follow_set_of_not_mem (t := t) (n := n) hp (not_mem_start hfresh) hsteps
  exact congrArg (Path.check path >>= fun _ => ·) hfollow

theorem look_set_of_fresh (n : Node) : (t.set p n).look path = t.look path := by
  rw [look, look, locate_set_of_fresh hfresh hp]

theorem entry_set_of_fresh (n : Node) : (t.set p n).entry path = t.entry path := by
  have hfollow := follow_set_of_not_mem (t := t) (n := n) hp (not_mem_start hfresh)
    (not_mem_dropLast_steps hfresh)
  refine congrArg (Path.check path >>= ·) (funext fun _ => ?_)
  dsimp only
  rw [show (t.set p n).here = t.here from rfl, hfollow]
  cases hparent : t.follow (Path.start t.here path) (Path.steps path).dropLast with
  | error kind => rfl
  | ok parent =>
    have hnot := not_mem_of_follow (not_mem_start hfresh) (not_mem_dropLast_steps hfresh) hparent
    have hname : fresh ∉ parent ++ [(Path.steps path).getLastD "."] := by
      refine fun h => (List.mem_append.1 h).elim hnot fun h => ?_
      rw [List.mem_singleton, List.getLastD_eq_getLast?] at h
      cases hlast : (Path.steps path).getLast? with
      | none => exact hfresh.noDot (h.trans (by rw [hlast]; rfl))
      | some name =>
        rw [hlast] at h
        exact hfresh.steps (h ▸ List.mem_of_getLast? hlast)
    rw [ok_bind, ok_bind, get?_set_of_not_mem hp n hnot, get?_set_of_not_mem hp n hname]

end Fresh

theorem mem_of_placeBeside (h : t.placeBeside path fresh = .ok p) : fresh ∈ p := by
  obtain ⟨q, -, rfl⟩ := map_eq_ok.1 h
  exact List.mem_append_right _ List.mem_cons_self

/-- Step by step, under whatever new name, a file gets where it gets at once; or nothing is left of
the attempt. -/
theorem replaceInSteps_eq (hfresh : t.IsFresh path fresh) (content : Bytes) :
    t.replaceInSteps path fresh content =
      match t.replace path content with
      | .error kind => (.error kind, t)
      | .ok t' => (.ok (), t') := by
  unfold replaceInSteps replace fileEntry
  cases hbeside : t.placeBeside path fresh with
  | error kind =>
    rw [map_eq_error.1 hbeside]
    rfl
  | ok p =>
    have hp := mem_of_placeBeside hbeside
    obtain ⟨q, hlocate, -⟩ := map_eq_ok.1 hbeside
    rw [hlocate]
    dsimp only
    rw [set_set_of_fresh hfresh hp, look_set_of_fresh hfresh hp, entry_set_of_fresh hfresh hp,
      erase_set_of_fresh hfresh hp]
    cases t.look path with
    | error kind => rfl
    | ok _ =>
      cases t.entry path with
      | error kind => rfl
      | ok target =>
        dsimp only
        rw [move_set_of_fresh hfresh hp]
        rfl

/-! ## When it works -/

/-- The directory that is to hold the last step of a path exists. -/
def HasParent (t : FileTree) (path : String) : Prop :=
  ∃ parent, t.follow (Path.start t.here path) (Path.steps path).dropLast = .ok parent ∧
    t.get? parent = some .directory

def IsDirectory (t : FileTree) (path : String) : Prop :=
  ∃ p, t.locate path = .ok p ∧ t.get? p = some .directory

theorem replace_iff_fileEntry : (∃ t', t.replace path content = .ok t') ↔
    ∃ p, t.fileEntry path = .ok p := by
  constructor
  · rintro ⟨t', h⟩
    obtain ⟨p, hentry, -⟩ := bind_eq_ok.1 h
    exact ⟨p, hentry⟩
  · rintro ⟨p, hentry⟩
    exact ⟨_, bind_eq_ok.2 ⟨p, hentry, rfl⟩⟩

theorem hasParent_of_fileEntry (h : t.fileEntry path = .ok p) : t.HasParent path := by
  obtain ⟨_, -, h⟩ := bind_eq_ok.1 h
  obtain ⟨_, -, hentry⟩ := bind_eq_ok.1 h
  obtain ⟨before, name, parent, -, hsteps, -, hfollow, hparent, -⟩ := entry_eq_ok hentry
  exact ⟨parent, by rwa [hsteps, List.dropLast_concat], hparent⟩

theorem not_isDirectory_of_fileEntry (h : t.fileEntry path = .ok p) : ¬ t.IsDirectory path := by
  rintro ⟨q, hlocate, hdirectory⟩
  obtain ⟨hlocate', -, hdir⟩ := locate_of_fileEntry h
  cases hlocate.symm.trans hlocate'
  exact hdir hdirectory

end FileTree

namespace Baseline

variable {t : FileTree} {path : String} {b : Baseline}

/-- Saves a baseline step by step. Its text comes first: without one, no file is made. -/
def saveInSteps (b : Baseline) (t : FileTree) (path fresh : String) :
    Except Fault Unit × FileTree :=
  match b.render with
  | .error fault => (.error fault, t)
  | .ok text =>
    let run := t.replaceInSteps path fresh (.ofText text)
    (run.1.mapError Fault.io, run.2)

theorem saveInSteps_eq {fresh : String} (hfresh : t.IsFresh path fresh) (b : Baseline) :
    b.saveInSteps t path fresh =
      match b.save t path with
      | .error fault => (.error fault, t)
      | .ok t' => (.ok (), t') := by
  unfold saveInSteps
  cases htext : b.render with
  | error fault =>
    rw [save, htext]
    rfl
  | ok text =>
    dsimp only
    rw [save_of_render htext, FileTree.replaceInSteps_eq hfresh]
    cases t.replace path (.ofText text) with
    | error kind => rfl
    | ok t' => rfl

theorem exists_save_iff : (∃ t', b.save t path = .ok t') ↔
    (∀ name ∈ b.names, isWritable name = true) ∧ ∃ p, t.fileEntry path = .ok p := by
  simp only [save_eq_ok, ← exists_render_iff]
  constructor
  · rintro ⟨t', text, htext, h⟩
    exact ⟨⟨text, htext⟩, FileTree.replace_iff_fileEntry.1 ⟨t', h⟩⟩
  · rintro ⟨⟨text, htext⟩, h⟩
    obtain ⟨t', h⟩ := FileTree.replace_iff_fileEntry.2 h
    exact ⟨t', text, htext, h⟩

/-- What cannot be saved: a name that no line can hold, no directory to hold the file, and a
directory in its place. -/
inductive Unsavable (b : Baseline) (t : FileTree) (path : String) : Prop where
  | name (name : String) (mem : name ∈ b.names) (odd : '\t' ∈ name.toList ∨ '\n' ∈ name.toList)
  | parent (missing : ¬ t.HasParent path)
  | target (directory : t.IsDirectory path)

theorem save_of_unsavable (h : Unsavable b t path) : ∃ fault, b.save t path = .error fault := by
  have hnever : ∀ t', b.save t path ≠ .ok t' := by
    intro t' hsave
    obtain ⟨hnames, p, hentry⟩ := exists_save_iff.1 ⟨t', hsave⟩
    cases h with
    | name name hmem hodd =>
      obtain ⟨htab, hfeed⟩ := isWritable_iff.1 (hnames name hmem)
      exact hodd.elim htab hfeed
    | parent hmissing => exact hmissing (FileTree.hasParent_of_fileEntry hentry)
    | target hdirectory => exact FileTree.not_isDirectory_of_fileEntry hentry hdirectory
  cases hsave : b.save t path with
  | error fault => exact ⟨fault, rfl⟩
  | ok t' => exact absurd hsave (hnever t')

/-- A baseline is saved or it is not. A saved one stands under its path with its whole text, loads
again as it was, and every other place is as before. Step by step, under any new name for the file
in the making, saving ends in the same way and in the very tree that saving at once gives; if it
fails, that is the tree it began with. It works exactly if every name can be written and the path is
fit for a file, so never for a tab or a line feed in a name, without a parent directory or onto a
directory. -/
theorem save_all_or_nothing (b : Baseline) (t : FileTree) (path : String) :
    (∀ t', b.save t path = .ok t' →
      (∃ text p, b.render = .ok text ∧ t.locate path = .ok p ∧ t'.locate path = .ok p ∧
        t'.get? p = some (.file (.ofText text)) ∧ t'.read path = .ok (.ofText text) ∧
        ∀ q, q ≠ p → t'.get? q = t.get? q) ∧
      (load t' path).outcome = .ok b) ∧
    (∃ fresh, t.IsFresh path fresh) ∧
    (∀ fresh, t.IsFresh path fresh → b.saveInSteps t path fresh =
      match b.save t path with
      | .error fault => (.error fault, t)
      | .ok t' => (.ok (), t')) ∧
    ((∃ t', b.save t path = .ok t') ↔
      (∀ name ∈ b.names, isWritable name = true) ∧ ∃ p, t.fileEntry path = .ok p) ∧
    (Unsavable b t path → ∃ fault, b.save t path = .error fault) := by
  refine ⟨fun t' hsave => ⟨?_, load_of_save hsave⟩, t.exists_isFresh path,
    fun fresh hfresh => saveInSteps_eq hfresh b, exists_save_iff, save_of_unsavable⟩
  obtain ⟨text, htext, hreplace⟩ := save_eq_ok.1 hsave
  obtain ⟨p, hlocate, hne, -, htree⟩ := FileTree.replace_eq_ok hreplace
  refine ⟨text, p, htext, hlocate, FileTree.locate_replace hreplace hlocate, ?_,
    FileTree.read_replace hreplace, fun q hq => ?_⟩
  · rw [htree, FileTree.get?_set hne, if_pos rfl]
  · rw [htree, FileTree.get?_set hne, if_neg hq]

/-- Next to another file, an old baseline gives way to a new one. A name with a line feed, a missing
directory and a directory in place of the file leave everything as it is. -/
theorem save_beside_a_file :
    let t := FileTree.ofFiles ["w"] [("dir/base.tsv", .ofText "old"), ("dir/log", [1, 2])]
    let b : Baseline := .ofList [("", ⟨.zero true, .nan⟩), ("a\r", ⟨.inf true, .ofNat 3⟩)]
    let odd : Baseline := b.insert "x\ny" ⟨.ofNat 1, .ofNat 2⟩
    let path := "dir/base.tsv"
    (∃ t', b.save t path = .ok t' ∧ b.saveInSteps t path "new" = (.ok (), t') ∧
      (load t' path).outcome = .ok b ∧ t'.get? ["w", "dir", "log"] = some (.file [1, 2])) ∧
    (∃ fault, odd.saveInSteps t path "new" = (.error fault, t)) ∧
    (∃ fault, b.saveInSteps t "none/base.tsv" "new" = (.error fault, t)) ∧
    ∃ fault, b.saveInSteps t "dir" "new" = (.error fault, t) := by
  intro t b odd path
  have hnodes : ∀ e ∈ t.nodes, "new" ∉ e.1 := by decide +kernel
  have hfresh : ∀ path, "new" ∉ Path.steps path → t.IsFresh path "new" := fun path hsteps =>
    ⟨by decide, by decide +kernel, hsteps, hnodes⟩
  have hkept : ∀ (b : Baseline) path, "new" ∉ Path.steps path → Unsavable b t path →
      ∃ fault, b.saveInSteps t path "new" = (.error fault, t) := by
    intro b path hsteps hunsavable
    obtain ⟨-, -, hrun, -, hfails⟩ := save_all_or_nothing b t path
    obtain ⟨fault, hfault⟩ := hfails hunsavable
    exact ⟨fault, by rw [hrun "new" (hfresh path hsteps), hfault]⟩
  refine ⟨?_, hkept odd path (by decide +kernel) (.name "x\ny" (by decide +kernel) (by decide)),
    hkept b _ (by decide +kernel) (.parent ?_),
    hkept b _ (by decide +kernel)
      (.target ⟨["w", "dir"], toOption_eq_some.1 (by decide +kernel), by decide +kernel⟩)⟩
  · obtain ⟨hsaved, -, hrun, hworks, -⟩ := save_all_or_nothing b t path
    have hentry : (t.fileEntry path).toOption = some ["w", "dir", "base.tsv"] := by decide +kernel
    obtain ⟨t', hsave⟩ := hworks.2 ⟨by decide +kernel, _, toOption_eq_some.1 hentry⟩
    obtain ⟨⟨text, p, -, hlocate, -, -, -, hothers⟩, hload⟩ := hsaved t' hsave
    refine ⟨t', hsave, ?_, hload, ?_⟩
    · rw [hrun "new" (hfresh path (by decide +kernel)), hsave]
    · have hplace : (t.locate path).toOption = some ["w", "dir", "base.tsv"] := by decide +kernel
      cases hlocate.symm.trans (toOption_eq_some.1 hplace)
      rw [hothers _ (by decide)]
      decide +kernel
  · rintro ⟨parent, hparent, hdirectory⟩
    have hnone : (t.follow (Path.start t.here "none/base.tsv")
        (Path.steps "none/base.tsv").dropLast).toOption = some ["w", "none"] := by decide +kernel
    cases hparent.symm.trans (toOption_eq_some.1 hnone)
    exact absurd hdirectory (by decide +kernel)

end Baseline

end Ratchet
