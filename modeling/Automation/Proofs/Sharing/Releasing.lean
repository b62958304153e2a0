import Automation.Environment
import Automation.Proofs.Sharing.Claiming
import Automation.Surroundings

/-
Claims that are given up, and claims that are refused.

A claim is held as long as a file at its path names the owner.  Giving it up takes that file away.  What
comes after, as an environment is given up, only takes files away, and so brings no claim back.  An owner
that is refused a claim has written nothing but its pending claim, and has taken that away again.
-/

namespace Automation

/-- Nothing in a tree is new since an earlier one. -/
structure FileTree.Thins (t now : FileTree) : Prop where
  workingDirectory : now.workingDirectory = t.workingDirectory
  node? : ∀ {l n}, now.node? l = some n → t.node? l = some n

namespace FileTree

variable {t now later : FileTree} {p : Path} {l : Location}

theorem Thins.refl (t : FileTree) : t.Thins t := ⟨rfl, id⟩

theorem Thins.trans (h : t.Thins now) (h' : now.Thins later) : t.Thins later :=
  ⟨h'.workingDirectory.trans h.workingDirectory, fun hnode => h.node? (h'.node? hnode)⟩

theorem thins_erase (t : FileTree) (l : Location) : t.Thins (t.erase l) := by
  refine ⟨rfl, fun {other n} hnode => ?_⟩
  by_cases hroot : other = []
  · rw [hroot, node?_root] at hnode ⊢
    exact hnode
  · rw [node?_erase t l other hroot] at hnode
    split at hnode
    · cases hnode
    · exact hnode

theorem thins_eraseBelow (t : FileTree) (l : Location) : t.Thins (t.eraseBelow l) := by
  refine ⟨rfl, fun {other n} hnode => ?_⟩
  by_cases hroot : other = []
  · rw [hroot, node?_root] at hnode ⊢
    exact hnode
  · rw [node?_eraseBelow t l other hroot] at hnode
    split at hnode
    · cases hnode
    · exact hnode

/-- What is read at a path goes by where it leads, and by what is there. -/
theorem readText_congr (hlocate : t.locate p = .ok l) (hnow : now.locate p = .ok l)
    (hnode : now.node? l = t.node? l) : now.readText p = t.readText p := by
  simp only [readText, readBytes, stat, hlocate, hnow, hnode]

theorem Thins.locate (h : t.Thins now) (hlocate : now.locate p = .ok l) : t.locate p = .ok l :=
  locate_of_kept h.workingDirectory.symm (fun _ _ hdirectory => h.node? hdirectory) hlocate

/-- Whatever can still be read could be read before. -/
theorem Thins.readText {text : String} (h : t.Thins now) (hread : now.readText p = .ok text) :
    t.readText p = .ok text := by
  obtain ⟨l, content, executable, hlocate, hnode⟩ := file_of_readText hread
  rw [← readText_congr (h.locate hlocate) hlocate (hnode.trans (h.node? hnode).symm)]
  exact hread

/-- A file that was taken away cannot be read. -/
theorem readText_erase_ne_ok {content : ByteArray} {executable : Bool} {text : String}
    (hlocate : t.locate p = .ok l) (hnode : t.node? l = some (.file content executable)) :
    (t.erase l).readText p ≠ .ok text := by
  intro hread
  have hthins := t.thins_erase l
  obtain ⟨found, content', executable', hfound, hthere⟩ := file_of_readText hread
  obtain rfl : l = found := Except.ok.inj (hlocate.symm.trans (hthins.locate hfound))
  have hroot : l ≠ [] := by
    rintro rfl
    rw [node?_root] at hnode
    cases hnode
  rw [node?_erase t l l hroot, if_pos rfl] at hthere
  cases hthere

/-- What is written is a file, and was no directory. -/
theorem exists_file_of_update {content : ByteArray → ByteArray} (h : t.update p content = .ok now) :
    ∃ l written executable, t.locate p = .ok l ∧ t.node? l ≠ some .directory ∧
      now = t.put l (.file written executable) := by
  rw [update] at h
  split at h
  · cases h
  · next l hlocate =>
    split at h
    · cases h
    · next old executable hnode =>
      exact ⟨l, content old, executable, hlocate, by simp [hnode], (Except.ok.inj h).symm⟩
    · next hnode =>
      exact ⟨l, content ByteArray.empty, false, hlocate, by simp [hnode],
        (Except.ok.inj h).symm⟩

end FileTree

namespace FileAction

variable {α β : Type}

/-- An action that may take away what is there, but brings nothing. -/
def Thins (action : FileAction α) : Prop := ∀ t : FileTree, t.Thins (action.run t).2

theorem thins_pure (value : α) : (pure value : FileAction α).Thins := FileTree.Thins.refl

theorem Thins.bind {action : FileAction α} {f : α → FileAction β} (h : action.Thins)
    (hf : ∀ value, (f value).Thins) : (action >>= f).Thins := by
  intro t
  rw [run_bind]
  exact (h t).trans (hf _ _)

theorem thins_unlink (p : Path) : (perform (.unlink p)).Thins := by
  intro t
  cases hunlink : (FileOp.unlink p).apply t with
  | error e =>
      rw [run_perform_error hunlink]
      exact .refl t
  | ok after =>
      obtain ⟨l, -, -, -, -, rfl⟩ := FileTree.unlink_ok hunlink
      rw [run_perform_ok hunlink]
      exact t.thins_erase l

/-- A file that is taken away is no directory. -/
theorem sameDirectories_unlink (p : Path) (t : FileTree) :
    t.SameDirectories ((perform (.unlink p)).run t).2 := by
  cases hunlink : (FileOp.unlink p).apply t with
  | error e =>
      rw [run_perform_error hunlink]
      exact .refl t
  | ok after =>
      obtain ⟨l, content, executable, -, hnode, rfl⟩ := FileTree.unlink_ok hunlink
      rw [run_perform_ok hunlink]
      exact .erase (by simp [hnode])

theorem thins_removeTree (p : Path) : (perform (.removeTree p)).Thins := by
  intro t
  cases hremove : (FileOp.removeTree p).apply t with
  | error e =>
      rw [run_perform_error hremove]
      exact .refl t
  | ok after =>
      rw [run_perform_ok hremove, FileTree.removeTree_ok hremove]
      exact t.thins_eraseBelow _

theorem thins_removeIfExists (p : Path) : (removeIfExists p).Thins := by
  apply (thins_unlink p).bind
  intro outcome
  split <;> exact thins_pure _

end FileAction

theorem Snapshot.thins_remove (snapshot : Path) : (Snapshot.remove snapshot).Thins :=
  (FileAction.thins_removeIfExists _).bind fun _ =>
    (FileAction.thins_removeIfExists _).bind fun _ => FileAction.thins_pure _

theorem Environment.thins_release (e : Environment) : e.release.Thins :=
  (FileAction.thins_removeTree _).bind fun _ => FileAction.thins_pure _

namespace Claims

variable {c : Claims} {address : String} {t now : FileTree}

/-- The claim of an address names its owner. -/
def IsHeld (c : Claims) (address : String) (t : FileTree) : Prop :=
  ∃ text, t.readText (c.path address) = .ok text ∧ Text.trim text = c.owner

/-- A claim does not come back while nothing is new. -/
theorem IsHeld.of_thins (h : t.Thins now) (hheld : c.IsHeld address now) : c.IsHeld address t := by
  obtain ⟨text, hread, howner⟩ := hheld
  exact ⟨text, h.readText hread, howner⟩

/-- Whoever gives up the claim of an address does not hold it any more. -/
theorem not_isHeld_release (c : Claims) (address : String) (t : FileTree) :
    ¬c.IsHeld address ((c.release address).run t).2 := by
  rintro ⟨text, hread, howner⟩
  rw [release, FileAction.run_bind, FileAction.run_observe] at hread
  cases hbefore : t.readText (c.path address) with
  | error e =>
      rw [hbefore] at hread
      exact absurd (hbefore.symm.trans hread) (by simp)
  | ok found =>
      rw [hbefore] at hread
      by_cases hours : (Text.trim found == c.owner) = true
      · obtain ⟨l, content, executable, hlocate, hnode⟩ := FileTree.file_of_readText hbefore
        have hunlink : (FileOp.unlink (c.path address)).apply t = .ok (t.erase l) :=
          FileTree.unlink_of_locate hlocate hnode
        simp only [hours, ↓reduceIte, FileAction.run_bind, FileAction.run_perform_ok hunlink,
          FileAction.run_pure] at hread
        exact FileTree.readText_erase_ne_ok hlocate hnode hread
      · simp only [Bool.not_eq_true] at hours
        simp only [hours, Bool.false_eq_true, ↓reduceIte, FileAction.run_pure] at hread
        obtain rfl := Except.ok.inj (hbefore.symm.trans hread)
        simp [howner] at hours

/-- Unless the action succeeds, it does nothing but to take files away. -/
def Quits (action : FileAction (Except RegistryError Unit)) : Prop :=
  ∀ (t : FileTree) (e : RegistryError), (action.run t).1 = .error e →
    t.Thins (action.run t).2 ∧ t.SameDirectories (action.run t).2

theorem quits_pure (answer : Except RegistryError Unit) : Quits (pure answer) :=
  fun t _ _ => ⟨.refl t, .refl t⟩

theorem quits_unlink_bind {f : Except OsError Unit → FileAction (Except RegistryError Unit)}
    (hf : ∀ outcome, Quits (f outcome)) (p : Path) :
    Quits (FileAction.perform (.unlink p) >>= f) := by
  intro t e h
  rw [FileAction.run_bind] at h ⊢
  obtain ⟨hthins, hsame⟩ := hf _ _ e h
  exact ⟨(FileAction.thins_unlink p t).trans hthins,
    (FileAction.sameDirectories_unlink p t).trans hsame⟩

/-- An attempt without success may have taken away a claim that was left over, but that is all. -/
theorem quits_linkPending (attempts : Nat) : Quits (c.linkPending address attempts) := by
  induction attempts with
  | zero => exact quits_pure _
  | succ attempts ih =>
      have hsettle : ∀ holder foreign, Quits (c.settleTaken address attempts holder foreign) := by
        intro holder foreign
        rw [settleTaken]
        split
        · exact quits_pure _
        · refine quits_unlink_bind (fun outcome => ?_) _
          split
          · exact ih
          · exact ih
          · exact quits_pure _
      intro t e
      rw [linkPending, FileAction.run_bind]
      cases hlink : (FileOp.link (c.pendingPath address) (c.path address)).apply t with
      | ok linked =>
          rw [FileAction.run_perform_ok hlink]
          intro h
          cases h
      | error refusal =>
          rw [FileAction.run_perform_error hlink]
          dsimp only
          split
          · exact quits_pure _ t e
          · exact hsettle (c.holder address t) (c.isForeign (c.holder address t) t) t e
          · exact quits_pure _ t e

/-- Whoever is refused the claim of an address holds no claim that was not held before. -/
theorem IsHeld.of_acquire_error {e : RegistryError} (h : ((c.acquire address).run t).1 = .error e)
    (hheld : c.IsHeld address ((c.acquire address).run t).2) : c.IsHeld address t := by
  rw [acquire, FileAction.run_bind] at h hheld
  cases hwrite : (FileOp.write (c.pendingPath address) c.owner.toUTF8).apply t with
  | error refusal =>
      rw [FileAction.run_perform_error hwrite] at hheld
      exact hheld
  | ok written =>
      rw [FileAction.run_perform_ok hwrite] at h hheld
      simp only [FileAction.run_bind, FileAction.run_pure] at h hheld
      obtain ⟨hthins, hsame⟩ := quits_linkPending 3 written e h
      generalize ((c.linkPending address 3).run written).2 = linked at hthins hsame hheld
      obtain ⟨text, hread, howner⟩ := hheld
      refine ⟨text, ?_, howner⟩
      obtain ⟨pending, content, executable, hpending, hfree, rfl⟩ :=
        FileTree.exists_file_of_update hwrite
      have hput := FileTree.SameDirectories.put_file hfree content executable
      have hremoved := FileAction.thins_unlink (c.pendingPath address) linked
      obtain ⟨l, claim, runnable, hclaim, hthere⟩ := FileTree.file_of_readText hread
      have hlinked := hremoved.locate hclaim
      -- The pending claim is taken away, so what is read was not written as one.
      have hother : l ≠ pending := by
        rintro rfl
        have hunlink : (FileOp.unlink (c.pendingPath address)).apply linked =
            .ok (linked.erase l) :=
          FileTree.unlink_of_locate ((hput.trans hsame).locate hpending) (hremoved.node? hthere)
        rw [FileAction.run_perform_ok hunlink] at hread
        exact FileTree.readText_erase_ne_ok hlinked (hremoved.node? hthere) hread
      have hready := hthins.locate hlinked
      rw [← FileTree.readText_congr (hput.symm.locate hready) hready
        (FileTree.node?_put_other _ (Ne.symm hother))]
      exact hthins.readText (hremoved.readText hread)

end Claims

namespace Registry

/-- The registry claims the address, and its claim is held. -/
def HoldsClaim (r : Registry) (address : String) (t : FileTree) : Prop :=
  ∃ c ∈ r.claims, c.IsHeld address t

variable {r : Registry} {address : String} {t now : FileTree}

theorem HoldsClaim.of_thins (h : t.Thins now) (hholds : r.HoldsClaim address now) :
    r.HoldsClaim address t := by
  obtain ⟨c, hc, hheld⟩ := hholds
  exact ⟨c, hc, hheld.of_thins h⟩

/-- A registry that refuses a context holds no claim for it that was not held before. -/
theorem HoldsClaim.of_openContext_error {e : RegistryError}
    (h : ((r.openContext address).run t).1.1 = .error e)
    (hholds : r.HoldsClaim address ((r.openContext address).run t).2) : r.HoldsClaim address t := by
  obtain ⟨c, hc, hheld⟩ := hholds
  refine ⟨c, hc, ?_⟩
  rw [openContext] at h hheld
  split at h
  · next generation hlive =>
    rw [hlive] at hheld
    exact hheld
  · next hidle =>
    rw [hidle] at hheld
    rw [claim, Option.mem_def.mp hc, FileAction.run_bind] at h hheld
    cases hacquire : ((c.acquire address).run t).1 with
    | ok done =>
        simp only [hacquire] at h
        cases h
    | error refusal =>
        simp only [hacquire] at hheld
        exact hheld.of_acquire_error hacquire

/-- A generation that was live is retired together with its claim. -/
theorem not_holdsClaim_closeContext {generation : Generation}
    (hlive : r.isLive address generation = true) (t : FileTree) :
    ¬(r.retired address).HoldsClaim address ((r.closeContext address generation).run t).2 := by
  rintro ⟨c, hc, hheld⟩
  rw [claims_retired] at hc
  rw [closeContext, if_pos hlive, FileAction.run_bind, unclaim, Option.mem_def.mp hc] at hheld
  exact c.not_isHeld_release address t hheld

end Registry

section Entries

variable {τ ε ε' : Type}

/-- To give up an entry brings no file. -/
def Capabilities.ReleaseThins (can : Capabilities τ ε) : Prop :=
  ∀ (entry : ε) (w : World τ), w.host.files.Thins ((can.release entry).run w).2.host.files

/-- Ending the process of a unit leaves all files alone. -/
def Launcher.StopsQuietly (launcher : Launcher τ) : Prop :=
  ∀ (process : Nat) (w : World τ), ((launcher.stop process).run w).2.host.files = w.host.files

theorem IsolatedEntry.releaseThins {launcher : Launcher τ} (h : launcher.StopsQuietly) :
    (capabilities launcher).ReleaseThins := by
  intro entry w
  change w.host.files.Thins ((Snapshot.remove entry.snapshot).run
    ((launcher.stop entry.process).run w).2.host.files).2
  rw [h]
  exact Snapshot.thins_remove entry.snapshot w.host.files

theorem ScriptedEntry.releaseThins (part : Nat → Part τ LoadScript) :
    (capabilities part).ReleaseThins :=
  fun _ w => .refl w.host.files

theorem Capabilities.ReleaseThins.either {a : Capabilities τ ε} {b : Capabilities τ ε'}
    (ha : a.ReleaseThins) (hb : b.ReleaseThins) : (a.either b).ReleaseThins := by
  intro entry w
  cases entry with
  | inl entry => exact ha entry w
  | inr entry => exact hb entry w

theorem UnitProcess.stopsQuietly_launcher : UnitProcess.launcher.StopsQuietly :=
  fun _ _ => rfl

end Entries

end Automation
