import Ratchet.FileTree
import Ratchet.Proofs.Stages

/-!
# What replacing a file does

`replace_eq_ok` says where a replaced file stands: at the place that its path leads to, which was no
directory. Every step of a path goes through a directory, so the paths that led somewhere before
lead there still (`follow_set`), the file reads back through its own path (`read_replace`), and it
can be replaced in turn (`replace_again`).
-/

namespace Ratchet.FileTree

variable {t t' : FileTree} {p q : Place} {path : String} {content : Bytes}

theorem follow_append (p : Place) (before after : List String) :
    t.follow p (before ++ after) = t.follow p before >>= fun q => t.follow q after := by
  induction before generalizing p with
  | nil => rfl
  | cons step rest ih =>
    rw [List.cons_append, follow, follow]
    split
    · rfl
    · rfl
    · split
      · rfl
      · exact ih _

theorem follow_step (step : String) (h : t.get? p = some .directory) :
    t.follow p [step] =
      if Path.nameLimit < step.utf8ByteSize then .error .invalidName
      else .ok (Path.next p step) := by
  simp only [follow, h]

/-- A node put where no directory stands is on the way of no path. -/
theorem follow_set {steps : List String} (hp : p ≠ []) (hdir : t.get? p ≠ some .directory)
    (n : Node) {from_ : Place} (h : t.follow from_ steps = .ok q) :
    (t.set p n).follow from_ steps = .ok q := by
  induction steps generalizing from_ with
  | nil => exact h
  | cons step rest ih =>
    rw [follow] at h
    split at h
    · cases h
    · cases h
    · next hfrom =>
      have hne : from_ ≠ p := fun e => hdir (e ▸ hfrom)
      rw [follow, get?_set hp, if_neg hne, hfrom]
      split at h
      · cases h
      · next hsize => simpa only [if_neg hsize] using ih h

theorem locate_set (hp : p ≠ []) (hdir : t.get? p ≠ some .directory) (n : Node)
    (h : t.locate path = .ok q) : (t.set p n).locate path = .ok q := by
  obtain ⟨_, hcheck, hfollow⟩ := bind_eq_ok.1 h
  exact bind_eq_ok.2 ⟨_, hcheck, follow_set hp hdir n hfollow⟩

theorem get?_set_of_directory (hp : p ≠ []) (hdir : t.get? p ≠ some .directory) (n : Node)
    (h : t.get? q = some .directory) : (t.set p n).get? q = some .directory := by
  have hne : q ≠ p := fun e => hdir (e ▸ h)
  rw [get?_set hp, if_neg hne, h]

/-! ## Replacing a file -/

theorem entry_eq_ok (h : t.entry path = .ok p) :
    ∃ before name parent, Path.check path = .ok () ∧ Path.steps path = before ++ [name] ∧
      Path.endsInSlash path = false ∧ t.follow (Path.start t.here path) before = .ok parent ∧
      t.get? parent = some .directory ∧ Path.next parent name = p ∧ p ≠ [] ∧
      t.get? p ≠ some .directory := by
  obtain ⟨_, hcheck, h⟩ := bind_eq_ok.1 h
  obtain ⟨parent, hfollow, h⟩ := bind_eq_ok.1 h
  split at h
  · cases h
  · cases h
  · next hparent =>
    simp only at h
    split at h
    · cases h
    · next hdots =>
      split at h
      · cases h
      · next hslash =>
        obtain ⟨hdot, hup⟩ := not_or.1 hdots
        have hne : Path.steps path ≠ [] := fun e => hdot (by rw [e]; rfl)
        have hlast := List.dropLast_concat_getLast hne
        have hname : (Path.steps path).getLastD "." = (Path.steps path).getLast hne :=
          List.getLastD_eq_getLast?.trans (by rw [List.getLast?_eq_some_getLast hne]; rfl)
        rw [hname] at h hdot hup
        refine ⟨_, _, parent, hcheck, hlast.symm, by simpa using hslash, hfollow, hparent, ?_⟩
        rw [Path.next, if_neg hdot, if_neg hup]
        split at h
        · cases h
        · next hnode =>
          cases h
          exact ⟨rfl, by simp, hnode⟩

theorem locate_of_fileEntry (h : t.fileEntry path = .ok p) :
    t.locate path = .ok p ∧ p ≠ [] ∧ t.get? p ≠ some .directory := by
  obtain ⟨_, -, h⟩ := bind_eq_ok.1 h
  obtain ⟨_, hlook, hentry⟩ := bind_eq_ok.1 h
  obtain ⟨before, name, parent, hcheck, hsteps, hslash, hfollow, hparent, hnext, hne, hdir⟩ :=
    entry_eq_ok hentry
  refine ⟨?_, hne, hdir⟩
  have hlocate : t.locate path =
      if Path.nameLimit < name.utf8ByteSize then .error .invalidName else .ok p := by
    rw [locate, hcheck, ok_bind, hslash, hsteps, if_neg Bool.false_ne_true, List.append_nil,
      follow_append, hfollow, ok_bind, ← hnext]
    exact follow_step name hparent
  rw [hlocate]
  rw [look, hlocate] at hlook
  split
  · next hsize => simp [hsize] at hlook
  · rfl

/-- A file that was replaced stands where its path leads; nothing else changed. -/
theorem replace_eq_ok (h : t.replace path content = .ok t') :
    ∃ p, t.locate path = .ok p ∧ p ≠ [] ∧ t.get? p ≠ some .directory ∧
      t' = t.set p (.file content) := by
  obtain ⟨p, hentry, h⟩ := bind_eq_ok.1 h
  obtain ⟨hlocate, hne, hdir⟩ := locate_of_fileEntry hentry
  cases h
  exact ⟨p, hlocate, hne, hdir, rfl⟩

theorem locate_replace (h : t.replace path content = .ok t') {other : String}
    (hother : t.locate other = .ok q) : t'.locate other = .ok q := by
  obtain ⟨p, -, hp, hdir, rfl⟩ := replace_eq_ok h
  exact locate_set hp hdir _ hother

theorem read_replace_of_locate {other : String} (h : t.replace path content = .ok t')
    (hother : t.locate other = t.locate path) : t'.read other = .ok content := by
  obtain ⟨p, hlocate, hp, -, htree⟩ := replace_eq_ok h
  have hstays := locate_replace h (hother.trans hlocate)
  rw [read, hstays, htree]
  simp only [bind, Except.bind, get?_set hp, ↓reduceIte]

theorem read_replace (h : t.replace path content = .ok t') : t'.read path = .ok content :=
  read_replace_of_locate h rfl

/-- What a path read before, it reads afterwards, unless it leads to the file that was replaced. -/
theorem read_replace_of_ne {other : String} {old : Bytes} (h : t.replace path content = .ok t')
    (hne : t.locate other ≠ t.locate path) (hread : t.read other = .ok old) :
    t'.read other = .ok old := by
  obtain ⟨q, hother, hnode⟩ := bind_eq_ok.1 hread
  have hstays := locate_replace h hother
  obtain ⟨p, hlocate, hp, -, rfl⟩ := replace_eq_ok h
  have hq : q ≠ p := fun e => hne (by rw [hother, hlocate, e])
  refine bind_eq_ok.2 ⟨q, hstays, ?_⟩
  rwa [get?_set hp, if_neg hq]

theorem read_eq_of_locate {other : String} (h : t.locate other = t.locate path) :
    t.read other = t.read path := by
  rw [read, read, h]

theorem get?_replace (h : t.replace path content = .ok t') :
    ∃ p, t.locate path = .ok p ∧ ∀ q, q ≠ p → t'.get? q = t.get? q := by
  obtain ⟨p, hlocate, hne, -, rfl⟩ := replace_eq_ok h
  exact ⟨p, hlocate, fun q hq => by rw [get?_set hne, if_neg hq]⟩

/-- Replacing a file by itself changes nothing. -/
theorem get?_replace_of_read (hread : t.read path = .ok content)
    (h : t.replace path content = .ok t') (q : Place) : t'.get? q = t.get? q := by
  obtain ⟨p, hlocate, hp, -, rfl⟩ := replace_eq_ok h
  obtain ⟨p', hlocate', hnode⟩ := bind_eq_ok.1 hread
  cases hlocate.symm.trans hlocate'
  rw [get?_set hp]
  split
  · next hq =>
    subst hq
    split at hnode
    · cases hnode
    · cases hnode
    · next hfile =>
      cases hnode
      exact hfile.symm
  · rfl

theorem fileEntry_set (h : t.fileEntry path = .ok p) (content : Bytes) :
    (t.set p (.file content)).fileEntry path = .ok p := by
  obtain ⟨hlocate, hp, hdir⟩ := locate_of_fileEntry h
  obtain ⟨beside, hbeside, h⟩ := bind_eq_ok.1 h
  obtain ⟨_, -, hentry⟩ := bind_eq_ok.1 h
  have hlook : (t.set p (.file content)).look path = .ok () := by
    rw [look, locate_set hp hdir _ hlocate]
  refine bind_eq_ok.2 ⟨beside, locate_set hp hdir _ hbeside, bind_eq_ok.2 ⟨(), hlook, ?_⟩⟩
  obtain ⟨_, hcheck, hentry⟩ := bind_eq_ok.1 hentry
  obtain ⟨parent, hparent, hentry⟩ := bind_eq_ok.1 hentry
  refine bind_eq_ok.2 ⟨_, hcheck, bind_eq_ok.2 ⟨parent, follow_set hp hdir _ hparent, ?_⟩⟩
  split at hentry
  · cases hentry
  · cases hentry
  · next hdirectory =>
    rw [get?_set_of_directory hp hdir _ hdirectory]
    simp only at hentry ⊢
    split at hentry
    · cases hentry
    · next hdots =>
      rw [if_neg hdots]
      split at hentry
      · cases hentry
      · next hslash =>
        rw [if_neg hslash]
        -- The entry of that name is now the file that was put there.
        split at hentry
        · cases hentry
        · cases hentry
          rw [get?_set hp, if_pos rfl]

theorem replace_again (h : t.replace path content = .ok t') (content' : Bytes) :
    ∃ t'', t'.replace path content' = .ok t'' := by
  obtain ⟨p, hentry, h⟩ := bind_eq_ok.1 h
  cases h
  exact ⟨_, bind_eq_ok.2 ⟨p, fileEntry_set hentry content, rfl⟩⟩

end Ratchet.FileTree
