import Automation.Proofs.Files.Effects

/-
What operations leave alone.

Every operation names the locations it may touch, and all others keep what they have.  The move of
a file is told in full: it touches two locations and no directory, so that paths lead where they
led before.
-/

namespace Automation

/-- Where an operation can change nothing, as far as its paths go. -/
def FileOp.Spares (wd : Location) (l : Location) : FileOp → Prop
  | .makeDirectory p => p.destination wd ≠ l
  | .write p _ => p.destination wd ≠ l
  | .append p _ => p.destination wd ≠ l
  | .unlink p => p.destination wd ≠ l
  | .removeTree p => ¬p.destination wd <+: l
  | .rename old new => ¬old.destination wd <+: l ∧ ¬new.destination wd <+: l
  | .link _ new => new.destination wd ≠ l
  | .setExecutable p _ => p.destination wd ≠ l

namespace FileTree

variable {t t' : FileTree} {p q : Path} {l m other : Location}

theorem node?_put_other (n : Node) (h : m ≠ other) : (t.put m n).node? other = t.node? other := by
  by_cases hother : other = []
  · rw [hother, node?_root, node?_root]
  · rw [node?_put t m other n hother, if_neg (Ne.symm h)]

theorem node?_erase_other (h : m ≠ other) : (t.erase m).node? other = t.node? other := by
  by_cases hother : other = []
  · rw [hother, node?_root, node?_root]
  · rw [node?_erase t m other hother, if_neg (Ne.symm h)]

theorem node?_eraseBelow_other (h : ¬m <+: other) :
    (t.eraseBelow m).node? other = t.node? other := by
  by_cases hother : other = []
  · rw [hother, node?_root, node?_root]
  · rw [node?_eraseBelow t m other hother, if_neg]
    exact fun hbelow => h (List.isPrefixOf_iff_prefix.mp hbelow)

theorem node?_moveBelow_other (hold : ¬l <+: other) (hnew : ¬m <+: other) :
    (t.moveBelow l m).node? other = t.node? other := by
  by_cases hother : other = []
  · rw [hother, node?_root, node?_root]
  · have hkept : ((t.eraseBelow l).eraseBelow m).node? other = t.node? other := by
      rw [node?_eraseBelow_other hnew, node?_eraseBelow_other hold]
    rw [← hkept, node?, node?, if_neg hother, if_neg hother, moveBelow]
    -- What is moved ends up below the new location.
    refine Table.get?_append_of_forall_ne fun entry hentry => ?_
    obtain ⟨⟨old, n⟩, _, hmoved⟩ := List.mem_filterMap.mp hentry
    dsimp only at hmoved
    split at hmoved
    · obtain rfl := Option.some.inj hmoved
      rintro rfl
      exact hnew (List.prefix_append _ _)
    · cases hmoved

/-- What a rename did, by the kind of what was renamed. -/
theorem rename_ok (h : t.rename p q = .ok t') :
    ∃ l m, t.locate p = .ok l ∧ t.locate q = .ok m ∧
      ((∃ content executable, t.node? l = some (.file content executable) ∧
          t.node? m ≠ some .directory ∧
          t' = if l = m then t else (t.erase l).put m (.file content executable)) ∨
        t.node? l = some .directory ∧ t' = if l = m then t else t.moveBelow l m) := by
  rw [rename] at h
  split at h
  · cases h
  next l hp =>
  split at h
  · cases h
  next m hq =>
  refine ⟨l, m, hp, hq, ?_⟩
  split at h
  · cases h
  · cases h
  · next content executable hfile hdirectory =>
    refine Or.inl ⟨content, executable, hfile, hdirectory, ?_⟩
    rw [← apply_ite Except.ok] at h
    exact (Except.ok.inj h).symm
  · cases h
  · next hdirectory _ =>
    refine Or.inr ⟨hdirectory, ?_⟩
    by_cases hsame : l = m
    · rw [if_pos hsame] at h ⊢
      exact (Except.ok.inj h).symm
    · rw [if_neg hsame] at h ⊢
      split at h
      · cases h
      · split at h
        · cases h
        · exact (Except.ok.inj h).symm

theorem update_ok {content : ByteArray → ByteArray} (h : t.update p content = .ok t') :
    ∃ n, t' = t.put (p.destination t.workingDirectory) n := by
  rw [update] at h
  split at h
  · cases h
  next l hlocate =>
  rw [← destination_of_locate hlocate]
  split at h
  · cases h
  · exact ⟨_, (Except.ok.inj h).symm⟩
  · exact ⟨_, (Except.ok.inj h).symm⟩

theorem unlink_ok (h : t.unlink p = .ok t') :
    ∃ l content executable, t.locate p = .ok l ∧ t.node? l = some (.file content executable) ∧
      t' = t.erase l := by
  rw [unlink] at h
  split at h
  · cases h
  next l hlocate =>
  split at h
  · cases h
  · cases h
  · next content executable hfile =>
    exact ⟨l, content, executable, hlocate, hfile, (Except.ok.inj h).symm⟩

theorem link_ok (h : t.link p q = .ok t') :
    ∃ n, t' = t.put (q.destination t.workingDirectory) n := by
  rw [link] at h
  split at h
  · cases h
  split at h
  · cases h
  split at h
  · cases h
  next m hlocate =>
  rw [← destination_of_locate hlocate]
  split at h
  · cases h
  · cases h
  · exact ⟨_, (Except.ok.inj h).symm⟩

theorem setExecutable_ok {executable : Bool} (h : t.setExecutable p executable = .ok t') :
    t' = t ∨ ∃ n, t' = t.put (p.destination t.workingDirectory) n := by
  rw [setExecutable] at h
  split at h
  · cases h
  next l hlocate =>
  rw [← destination_of_locate hlocate]
  split at h
  · cases h
  · exact Or.inl (Except.ok.inj h).symm
  · exact Or.inr ⟨_, (Except.ok.inj h).symm⟩

/-- An operation leaves alone what it spares, and the working directory is where it was. -/
theorem spared_of_apply {op : FileOp} (h : op.apply t = .ok t') :
    t'.workingDirectory = t.workingDirectory ∧
      ∀ l, op.Spares t.workingDirectory l → t'.node? l = t.node? l := by
  cases op with
  | makeDirectory p =>
      obtain ⟨_, rfl⟩ := makeDirectory_ok h
      exact ⟨rfl, fun l hl => node?_put_other _ hl⟩
  | write p content =>
      obtain ⟨n, rfl⟩ := update_ok h
      exact ⟨rfl, fun l hl => node?_put_other _ hl⟩
  | append p content =>
      obtain ⟨n, rfl⟩ := update_ok h
      exact ⟨rfl, fun l hl => node?_put_other _ hl⟩
  | unlink p =>
      obtain ⟨l, _, _, hlocate, _, rfl⟩ := unlink_ok h
      refine ⟨rfl, fun other hother => node?_erase_other ?_⟩
      rwa [destination_of_locate hlocate]
  | removeTree p =>
      obtain rfl := removeTree_ok h
      exact ⟨rfl, fun l hl => node?_eraseBelow_other hl⟩
  | rename p q =>
      obtain ⟨l, m, hp, hq, hkind⟩ := rename_ok h
      obtain rfl := destination_of_locate hp
      obtain rfl := destination_of_locate hq
      constructor
      · rcases hkind with ⟨_, _, _, _, rfl⟩ | ⟨_, rfl⟩
        · split <;> rfl
        · split <;> rfl
      · rintro other ⟨hold, hnew⟩
        rcases hkind with ⟨_, _, _, _, rfl⟩ | ⟨_, rfl⟩
        · split
          · rfl
          · rw [node?_put_other _ fun heq => hnew (by simp [heq]),
              node?_erase_other fun heq => hold (by simp [heq])]
        · split
          · rfl
          · exact node?_moveBelow_other hold hnew
  | link p q =>
      obtain ⟨n, rfl⟩ := link_ok h
      exact ⟨rfl, fun l hl => node?_put_other _ hl⟩
  | setExecutable p executable =>
      rcases setExecutable_ok h with rfl | ⟨n, rfl⟩
      · exact ⟨rfl, fun _ _ => rfl⟩
      · exact ⟨rfl, fun l hl => node?_put_other _ hl⟩

/-- The file at one location has been moved to another one. -/
structure Moved (t t' : FileTree) (l m : Location) : Prop where
  workingDirectory : t'.workingDirectory = t.workingDirectory
  file : ∃ content executable, t.node? l = some (.file content executable)
  free : t.node? m ≠ some .directory
  node : ∀ other, t'.node? other =
    if other = m then t.node? l else if other = l then none else t.node? other

variable {content : ByteArray} {executable : Bool}

theorem moved_of_put_erase (hfile : t.node? l = some (.file content executable))
    (hfree : t.node? m ≠ some .directory) :
    t.Moved (if l = m then t else (t.erase l).put m (.file content executable)) l m := by
  have hl : l ≠ [] := by
    rintro rfl
    rw [node?_root] at hfile
    cases hfile
  have hm : m ≠ [] := by
    rintro rfl
    exact hfree t.node?_root
  refine ⟨by split <;> rfl, ⟨content, executable, hfile⟩, hfree, fun other => ?_⟩
  by_cases hsame : l = m
  · subst hsame
    rw [if_pos rfl]
    split
    · next heq => rw [heq]
    · rfl
  · rw [if_neg hsame, node?_put_of_ne hm, node?_erase_of_ne hl, hfile]

/-- A file that was renamed has moved. -/
theorem moved_of_rename (h : t.rename p q = .ok t') (hp : t.locate p = .ok l)
    (hfile : t.node? l = some (.file content executable)) :
    ∃ m, t.locate q = .ok m ∧ t.Moved t' l m := by
  obtain ⟨l', m, hp', hq, hkind⟩ := rename_ok h
  obtain rfl := Except.ok.inj (hp.symm.trans hp')
  refine ⟨m, hq, ?_⟩
  rcases hkind with ⟨content', executable', hfile', hfree, rfl⟩ | ⟨hdirectory, _⟩
  · exact moved_of_put_erase hfile' hfree
  · rw [hfile] at hdirectory
    cases hdirectory

/-- A file can be renamed to any path that leads somewhere, unless that is a directory. -/
theorem exists_rename_of_locate (hp : t.locate p = .ok l)
    (hfile : t.node? l = some (.file content executable)) (hq : t.locate q = .ok m)
    (hfree : t.node? m ≠ some .directory) : ∃ t', t.rename p q = .ok t' := by
  rw [rename, hp]
  simp only [hq, hfile]
  cases hnode : t.node? m with
  | none => simp only [← apply_ite Except.ok, Except.ok.injEq, exists_eq']
  | some n =>
      cases n with
      | directory => exact absurd hnode hfree
      | file _ _ => simp only [← apply_ite Except.ok, Except.ok.injEq, exists_eq']

namespace Moved

variable {d : Location}

theorem directory_iff (h : t.Moved t' l m) (other : Location) :
    t'.node? other = some .directory ↔ t.node? other = some .directory := by
  obtain ⟨content, executable, hfile⟩ := h.file
  rw [h.node]
  split
  · next heq =>
    simp [hfile, heq, h.free]
  · split
    · next heq => simp [hfile, heq]
    · exact Iff.rfl

theorem reaches (h : t.Moved t' l m) (hreaches : t.Reaches p d) : t'.Reaches p d :=
  hreaches.of_kept h.workingDirectory fun other => (h.directory_iff other).mpr

theorem node?_target (h : t.Moved t' l m) : t'.node? m = t.node? l := by
  rw [h.node, if_pos rfl]

theorem node?_source (h : t.Moved t' l m) (hne : l ≠ m) : t'.node? l = none := by
  rw [h.node, if_neg hne, if_pos rfl]

theorem node?_other (h : t.Moved t' l m) (hl : other ≠ l) (hm : other ≠ m) :
    t'.node? other = t.node? other := by
  rw [h.node, if_neg hm, if_neg hl]

end Moved

/-- Two trees have the same directories and may have different files only at some locations. -/
structure AgreesOff (places : Location → Prop) (t t' : FileTree) : Prop where
  workingDirectory : t'.workingDirectory = t.workingDirectory
  directory_iff : ∀ l, t'.node? l = some .directory ↔ t.node? l = some .directory
  node : ∀ l, ¬places l → t'.node? l = t.node? l

namespace AgreesOff

variable {places places' : Location → Prop} {t'' : FileTree} {d : Location}

theorem refl (places : Location → Prop) (t : FileTree) : t.AgreesOff places t :=
  ⟨rfl, fun _ => Iff.rfl, fun _ _ => rfl⟩

theorem trans (h : t.AgreesOff places t') (h' : t'.AgreesOff places t'') :
    t.AgreesOff places t'' :=
  ⟨h'.workingDirectory.trans h.workingDirectory,
    fun l => (h'.directory_iff l).trans (h.directory_iff l),
    fun l hl => (h'.node l hl).trans (h.node l hl)⟩

theorem mono (h : t.AgreesOff places t') (hmono : ∀ l, places l → places' l) :
    t.AgreesOff places' t' :=
  ⟨h.workingDirectory, h.directory_iff, fun l hl => h.node l fun hplace => hl (hmono l hplace)⟩

theorem reaches (h : t.AgreesOff places t') (hreaches : t.Reaches p d) : t'.Reaches p d :=
  hreaches.of_kept h.workingDirectory fun other => (h.directory_iff other).mpr

end AgreesOff

theorem Moved.agreesOff (h : t.Moved t' l m) :
    t.AgreesOff (fun other => other = l ∨ other = m) t' :=
  ⟨h.workingDirectory, h.directory_iff,
    fun _ hother => h.node?_other (fun heq => hother (Or.inl heq)) fun heq => hother (Or.inr heq)⟩

section Undo

variable {places : Location → Prop} {t₁ t₂ : FileTree}

/-- To remove a file that was moved in undoes the move, but for the place it was moved from. -/
theorem Moved.undo_erase (h : t.Moved t₁ l m) (hfree : t.node? m = none)
    (hagrees : t₁.AgreesOff places t₂) (hl : places l) (hm : ¬places m) :
    t.AgreesOff places (t₂.erase m) := by
  have hroot : m ≠ [] := by
    rintro rfl
    rw [node?_root] at hfree
    cases hfree
  refine ⟨hagrees.workingDirectory.trans h.workingDirectory, fun other => ?_, fun other hother => ?_⟩
  · rw [node?_erase_of_ne hroot]
    split
    · next heq => simp [heq, hfree]
    · exact (hagrees.directory_iff other).trans (h.directory_iff other)
  · rw [node?_erase_of_ne hroot]
    split
    · next heq => rw [heq, hfree]
    · next hne =>
      have hne' : other ≠ l := fun heq => hother (heq ▸ hl)
      rw [hagrees.node other hother, h.node?_other hne' hne]

/-- To move a file back undoes its move. -/
theorem Moved.undo_moved (h : t.Moved t₁ l m) (hagrees : t₁.AgreesOff places t₂)
    (hback : t₂.Moved t' m l) (hm : ¬places m) :
    t.AgreesOff (fun other => places other ∨ other = m) t' := by
  refine ⟨(hback.workingDirectory.trans hagrees.workingDirectory).trans h.workingDirectory,
    fun other => ?_, fun other hother => ?_⟩
  · exact ((hback.directory_iff other).trans (hagrees.directory_iff other)).trans
      (h.directory_iff other)
  · have hother' : ¬places other ∧ other ≠ m := not_or.mp hother
    by_cases heq : other = l
    · rw [heq, hback.node?_target, hagrees.node m hm, h.node?_target]
    · rw [hback.node?_other hother'.2 heq, hagrees.node other hother'.1,
        h.node?_other heq hother'.2]

end Undo

end FileTree

end Automation
