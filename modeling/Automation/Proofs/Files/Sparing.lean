import Automation.Proofs.Files.Contents
import Automation.Proofs.Files.Histories
import Automation.World

/-
What spares a directory.

A directory is spared by what changes nothing below it and keeps the directories on the way there.  An
action spares it when each of its steps does, and a step on a file elsewhere always does: it is in the
place of no directory.
-/

namespace Automation

open FileTree

/-- Between two trees nothing has changed below the directory of a path, and the way there is still one. -/
structure Path.Spared (p : Path) (t t' : FileTree) : Prop where
  workingDirectory : t'.workingDirectory = t.workingDirectory
  way : ∀ before, before <+: p.names →
    t.node? (lead (p.origin t.workingDirectory) before) = some .directory →
      t'.node? (lead (p.origin t.workingDirectory) before) = some .directory
  below : ∀ rest, t'.node? (p.destination t.workingDirectory ++ rest) =
    t.node? (p.destination t.workingDirectory ++ rest)

namespace Path.Spared

variable {p q : Path} {t t' t'' : FileTree} {l : Location} {places : Location → Prop}

theorem refl (p : Path) (t : FileTree) : p.Spared t t := ⟨rfl, fun _ _ h => h, fun _ => rfl⟩

theorem trans (h : p.Spared t t') (h' : p.Spared t' t'') : p.Spared t t'' := by
  obtain ⟨hwd, hway, hbelow⟩ := h'
  rw [h.workingDirectory] at hwd hway hbelow
  exact ⟨hwd, fun before hbefore hdirectory => hway before hbefore (h.way before hbefore hdirectory),
    fun rest => (hbelow rest).trans (h.below rest)⟩

theorem destination_eq (h : p.Spared t t') (q : Path) :
    q.destination t'.workingDirectory = q.destination t.workingDirectory := by
  rw [h.workingDirectory]

theorem contentAt? (h : p.Spared t t') (rest : Location) :
    t'.contentAt? (p.destination t.workingDirectory ++ rest) =
      t.contentAt? (p.destination t.workingDirectory ++ rest) :=
  contentAt?_congr (h.below rest)

theorem reaches (h : p.Spared t t') (hreaches : t.Reaches p l) : t'.Reaches p l :=
  hreaches.mono h.workingDirectory fun before hbefore => h.way before hbefore

/-- Changes of files elsewhere spare a directory. -/
theorem of_agreesOff (h : t.AgreesOff places t')
    (hplaces : ∀ l, places l → ¬p.destination t.workingDirectory <+: l) : p.Spared t t' := by
  refine ⟨h.workingDirectory, fun before _ => (h.directory_iff _).mpr, fun rest => ?_⟩
  exact h.node _ fun hplace => hplaces _ hplace (List.prefix_append _ _)

/-- A directory that is made elsewhere spares it. -/
theorem put_directory (hfree : t.node? l = none) (hl : ¬p.destination t.workingDirectory <+: l) :
    p.Spared t (t.put l .directory) := by
  refine ⟨rfl, fun before _ hdirectory => ?_, fun rest => node?_put_other _ ?_⟩
  · rw [node?_put_other, hdirectory]
    rintro rfl
    rw [hfree] at hdirectory
    cases hdirectory
  · rintro rfl
    exact hl (List.prefix_append _ _)

end Path.Spared

/-- A step that makes, changes or removes at most the file at a location. -/
def FileOp.IsOnFile (wd l : Location) : FileOp → Prop
  | .write p _ => p.destination wd = l
  | .append p _ => p.destination wd = l
  | .unlink p => p.destination wd = l
  | .link _ new => new.destination wd = l
  | .setExecutable p _ => p.destination wd = l
  | _ => False

namespace FileTree

variable {t t' : FileTree} {l : Location} {n : Node}

theorem ne_nil_of_not_directory (h : t.node? l ≠ some .directory) : l ≠ [] := by
  rintro rfl
  exact h t.node?_root

theorem agreesOff_put_file (hfree : t.node? l ≠ some .directory) (content : ByteArray)
    (executable : Bool) : t.AgreesOff (· = l) (t.put l (.file content executable)) := by
  have hroot := ne_nil_of_not_directory hfree
  refine ⟨rfl, fun other => ?_, fun other hother => ?_⟩
  · rw [node?_put_of_ne hroot]
    split
    · next heq => simp [heq, hfree]
    · exact Iff.rfl
  · rw [node?_put_of_ne hroot, if_neg hother]

theorem agreesOff_erase (hfile : t.node? l ≠ some .directory) :
    t.AgreesOff (· = l) (t.erase l) := by
  have hroot := ne_nil_of_not_directory hfile
  refine ⟨rfl, fun other => ?_, fun other hother => ?_⟩
  · rw [node?_erase_of_ne hroot]
    split
    · next heq => simp [heq, hfile]
    · exact Iff.rfl
  · rw [node?_erase_of_ne hroot, if_neg hother]

/-- What was written to a path is there. -/
theorem file_of_write {p : Path} {content : ByteArray}
    (h : (FileOp.write p content).apply t = .ok t') :
    ∃ executable, t'.node? (p.destination t.workingDirectory) = some (.file content executable) := by
  change t.update p (fun _ => content) = _ at h
  rw [update] at h
  split at h
  · cases h
  next l hlocate =>
  rw [← destination_of_locate hlocate]
  split at h
  · cases h
  · next executable hfile =>
    have hroot := ne_nil_of_not_directory (t := t) (l := l) (by simp [hfile])
    obtain rfl := Except.ok.inj h
    exact ⟨executable, (node?_put_of_ne hroot _).trans (if_pos rfl)⟩
  · next hfree =>
    have hroot := ne_nil_of_not_directory (t := t) (l := l) (by simp [hfree])
    obtain rfl := Except.ok.inj h
    exact ⟨false, (node?_put_of_ne hroot _).trans (if_pos rfl)⟩

theorem agreesOff_of_update {p : Path} {content : ByteArray → ByteArray}
    (h : t.update p content = .ok t') :
    t.AgreesOff (· = p.destination t.workingDirectory) t' := by
  rw [update] at h
  split at h
  · cases h
  next l hlocate =>
  rw [← destination_of_locate hlocate]
  split at h
  · cases h
  · next hnode =>
    obtain rfl := Except.ok.inj h
    exact agreesOff_put_file (by simp [hnode]) _ _
  · next hnode =>
    obtain rfl := Except.ok.inj h
    exact agreesOff_put_file (by simp [hnode]) _ _

/-- A step on a file keeps all directories and all other files. -/
theorem agreesOff_of_apply {op : FileOp} (hop : op.IsOnFile t.workingDirectory l)
    (h : op.apply t = .ok t') : t.AgreesOff (· = l) t' := by
  cases op with
  | makeDirectory p => cases hop
  | write p content => exact hop ▸ agreesOff_of_update h
  | append p content => exact hop ▸ agreesOff_of_update h
  | unlink p =>
      obtain ⟨m, content, executable, hlocate, hfile, rfl⟩ := unlink_ok h
      obtain rfl : m = l := (destination_of_locate hlocate).trans hop
      exact agreesOff_erase (by simp [hfile])
  | removeTree p => cases hop
  | rename p q => cases hop
  | link p q =>
      change t.link p q = _ at h
      rw [link] at h
      split at h
      · cases h
      split at h
      · cases h
      split at h
      · cases h
      next m hlocate =>
      obtain rfl : m = l := (destination_of_locate hlocate).trans hop
      split at h
      · cases h
      · cases h
      · next hfree _ =>
        obtain rfl := Except.ok.inj h
        exact agreesOff_put_file (by simp [hfree]) _ _
  | setExecutable p executable =>
      change t.setExecutable p executable = _ at h
      rw [setExecutable] at h
      split at h
      · cases h
      next m hlocate =>
      obtain rfl : m = l := (destination_of_locate hlocate).trans hop
      split at h
      · cases h
      · obtain rfl := Except.ok.inj h
        exact .refl _ _
      · next hfile =>
        obtain rfl := Except.ok.inj h
        exact agreesOff_put_file (by simp [hfile]) _ _

end FileTree

namespace FileAction

variable {α : Type} {p : Path} {kind : FileOp → Prop} {action : FileAction α}

/-- An action whose steps spare a directory spares it. -/
theorem spared_of_tries {t : FileTree} (htries : action.Tries kind)
    (hstep : ∀ op now next, kind op → p.Spared t now → op.apply now = .ok next →
      p.Spared now next) : p.Spared t (action.run t).2 :=
  ((history_run action t).keeps htries
    (fun op now next hop hnow happly => hnow.trans (hstep op now next hop hnow happly))
    (.refl p t)).2

/-- Steps on files elsewhere spare a directory. -/
theorem spared_of_onFiles {t : FileTree}
    (htries : action.Tries fun op => ∃ l, op.IsOnFile t.workingDirectory l ∧
      ¬p.destination t.workingDirectory <+: l) : p.Spared t (action.run t).2 := by
  apply spared_of_tries htries
  rintro op now next ⟨l, hop, hl⟩ hnow happly
  rw [← hnow.workingDirectory] at hop
  apply Path.Spared.of_agreesOff (agreesOff_of_apply hop happly)
  rintro _ rfl
  rw [hnow.workingDirectory]
  exact hl

end FileAction

namespace Act

variable {τ α β : Type} {p : Path}

theorem run_bind (act : Act τ α) (f : α → Act τ β) (w : World τ) :
    (act >>= f).run w = (f (act.run w).1).run (act.run w).2 := rfl

theorem run_files (action : FileAction α) (w : World τ) :
    (files action : Act τ α).run w =
      ((action.run w.host.files).1, w.withFiles (action.run w.host.files).2) := rfl

@[simp] theorem files_run_files (action : FileAction α) (w : World τ) :
    ((files action : Act τ α).run w).2.host.files = (action.run w.host.files).2 := rfl

/-- An act that spares a directory, whatever the world is. -/
def Spares (p : Path) (act : Act τ α) : Prop :=
  ∀ w, p.Spared w.host.files (act.run w).2.host.files

theorem spares_pure (value : α) : (pure value : Act τ α).Spares p := fun _ => .refl p _

theorem Spares.bind {act : Act τ α} {f : α → Act τ β} (h : act.Spares p)
    (hf : ∀ value, (f value).Spares p) : (act >>= f).Spares p :=
  fun w => (h w).trans (hf _ _)

end Act

end Automation
