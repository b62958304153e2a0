import Automation.Proofs.Publishing.Rollback

/-
What staging leaves alone.

Around a compile the staging directory of an address is cleared and made anew, what was staged may
be thrown away, and a commit of it may fail.  None of this touches what is published.  Outside that
directory all that can happen is that directories are made on the way to it.
-/

namespace Automation

namespace FileTree

/-- Outside a directory everything is as it was, save for directories that were made where nothing
was, at some places. -/
structure KeptOutside (directory : Location) (places : Location → Prop) (t now : FileTree) :
    Prop where
  workingDirectory : now.workingDirectory = t.workingDirectory
  node : ∀ l, ¬directory <+: l → now.node? l = t.node? l ∨
    places l ∧ t.node? l = none ∧ now.node? l = some .directory

namespace KeptOutside

variable {directory l : Location} {places : Location → Prop} {t now later : FileTree}

theorem refl (directory : Location) (places : Location → Prop) (t : FileTree) :
    t.KeptOutside directory places t :=
  ⟨rfl, fun _ _ => Or.inl rfl⟩

theorem of_node (hwd : now.workingDirectory = t.workingDirectory)
    (h : ∀ l, ¬directory <+: l → now.node? l = t.node? l) : t.KeptOutside directory places now :=
  ⟨hwd, fun l hl => Or.inl (h l hl)⟩

theorem trans (h : t.KeptOutside directory places now)
    (h' : now.KeptOutside directory places later) : t.KeptOutside directory places later := by
  refine ⟨h'.workingDirectory.trans h.workingDirectory, fun l hl => ?_⟩
  rcases h'.node l hl with hsame' | ⟨hplace, hfree, hmade⟩
  · rw [hsame']
    exact h.node l hl
  · rcases h.node l hl with hsame | ⟨_, _, hdirectory⟩
    · exact Or.inr ⟨hplace, hsame ▸ hfree, hmade⟩
    · rw [hfree] at hdirectory
      cases hdirectory

/-- A directory that was made is in the place of no file. -/
theorem contentAt? (h : t.KeptOutside directory places now) (hl : ¬directory <+: l) :
    now.contentAt? l = t.contentAt? l := by
  rcases h.node l hl with hsame | ⟨_, hfree, hmade⟩
  · exact contentAt?_congr hsame
  · rw [contentAt?_eq_none_of_node? hfree, FileTree.contentAt?, hmade]

end KeptOutside

end FileTree

namespace ArtifactStore

open FileAction

/-- The directories that are made for the staging of an address. -/
def stagingDirectories (s : ArtifactStore) (address : String) : List Path :=
  [s.programsDir.child stagingName, s.desk address]

/-- Where the ways to these directories lead through. -/
def StagingPlace (s : ArtifactStore) (address : String) (wd l : Location) : Prop :=
  ∃ q ∈ s.stagingDirectories address, ∃ before, before <+: q.names ∧
    l = FileTree.lead (q.origin wd) before

/-- Outside the staging directory of an address nothing has changed, save that the way to it may
have been made. -/
def Undisturbed (s : ArtifactStore) (address : String) (t now : FileTree) : Prop :=
  t.KeptOutside ((s.desk address).destination t.workingDirectory)
    (s.StagingPlace address t.workingDirectory) now

/-- The steps of staging: to make the directories, to clear that of the address, and to write or
remove a file in it. -/
inductive StagingStep (s : ArtifactStore) (address : String) : FileOp → Prop where
  | make {p q : Path} (hq : q ∈ s.stagingDirectories address) (hp : p ∈ q.ancestors)
      (hne : p.text ≠ "") : StagingStep s address (.makeDirectory p)
  | clear : StagingStep s address (.removeTree (s.desk address))
  | write {name : String} (hname : IsPart name) (content : ByteArray) :
      StagingStep s address (.write ((s.desk address).child name) content)
  | remove {name : String} (hname : IsPart name) :
      StagingStep s address (.unlink ((s.desk address).child name))

section Steps

variable {α : Type} {s : ArtifactStore} {address : String} {staged : Path}
  {t t' now later : FileTree}

theorem Undisturbed.refl (s : ArtifactStore) (address : String) (t : FileTree) :
    s.Undisturbed address t t :=
  FileTree.KeptOutside.refl _ _ t

theorem Undisturbed.trans (h : s.Undisturbed address t now)
    (h' : s.Undisturbed address now later) : s.Undisturbed address t later := by
  rw [Undisturbed, h.workingDirectory] at h'
  exact FileTree.KeptOutside.trans h h'

/-- A name in a directory leads to no location outside of it. -/
theorem destination_ne_of_outside {p : Path} {name : String} {wd l : Location} (hname : IsPart name)
    (hl : ¬p.destination wd <+: l) : (p.child name).destination wd ≠ l := by
  rw [Path.destination_child hname]
  rintro rfl
  exact hl (List.prefix_append _ _)

theorem StagingStep.undisturbed {op : FileOp} (h : s.StagingStep address op)
    (happly : op.apply t = .ok t') : s.Undisturbed address t t' := by
  cases h with
  | @make p q hq hp hne =>
      obtain ⟨hfree, rfl⟩ := FileTree.makeDirectory_ok happly
      refine ⟨rfl, fun l _ => ?_⟩
      by_cases hl : p.destination t.workingDirectory = l
      · subst hl
        rcases Path.names_of_mem_ancestors hp with hempty | ⟨hfirst, habsolute⟩
        · exact absurd hempty hne
        · have hroot : p.destination t.workingDirectory ≠ [] := by
            intro hroot
            rw [hroot, FileTree.node?_root] at hfree
            cases hfree
          have hmade := (FileTree.node?_put_of_ne (t := t) hroot .directory).trans (if_pos rfl)
          refine Or.inr ⟨⟨q, hq, p.names, hfirst, ?_⟩, hfree, hmade⟩
          rw [Path.destination, Path.origin, Path.origin, habsolute]
      · exact Or.inl (FileTree.node?_put_other _ hl)
  | clear =>
      obtain rfl := FileTree.removeTree_ok happly
      exact .of_node rfl fun l hl => FileTree.node?_eraseBelow_other hl
  | write hname content =>
      obtain ⟨hwd, hspared⟩ := FileTree.spared_of_apply happly
      exact .of_node hwd fun l hl => hspared l (destination_ne_of_outside hname hl)
  | remove hname =>
      obtain ⟨hwd, hspared⟩ := FileTree.spared_of_apply happly
      exact .of_node hwd fun l hl => hspared l (destination_ne_of_outside hname hl)

/-- Whatever the system refuses, staging disturbs nothing. -/
theorem undisturbed_of_history {action : FileAction α} {events : List FileEvent} {value : α}
    (htries : action.Tries (s.StagingStep address)) (h : History action t events value t') :
    s.Undisturbed address t t' :=
  (h.keeps htries (fun _ _ _ hstep hnow happly => hnow.trans (hstep.undisturbed happly))
    (.refl s address t)).2

theorem tries_createDirectory {q : Path} (hq : q ∈ s.stagingDirectories address) :
    (createDirectory q).run.Tries (s.StagingStep address) :=
  FileTask.tries_during (tries_makeDirectories fun _ hp hne => .make hq hp hne)

theorem tries_ensureDirectories : s.ensureDirectories.run.Tries (s.StagingStep address) :=
  tries_createDirectory List.mem_cons_self

/-- Without an address there is no staging directory, and the task ends before its first step. -/
theorem tries_inStagingDirectory {kind : FileOp → Prop} {task : Path → FileTask α}
    (h : (task (s.desk address)).run.Tries kind) :
    (FileTask.ofExcept (s.stagingDirectory address) >>= task).run.Tries kind := by
  rw [stagingDirectory, checkAddress]
  split
  · exact h
  · exact tries_pure _

theorem tries_cleanStaging_of_clear {kind : FileOp → Prop} (h : kind (.removeTree (s.desk address))) :
    (s.cleanStaging address).run.Tries kind := by
  refine tries_inStagingDirectory (FileTask.tries_during ?_)
  refine (tries_perform h).bind fun outcome => ?_
  split
  · exact tries_pure _
  · exact tries_pure _

theorem tries_cleanStaging : (s.cleanStaging address).run.Tries (s.StagingStep address) :=
  tries_cleanStaging_of_clear .clear

/-- To look for a free path, with the number to go on with, takes no step. -/
theorem tries_numbered {kind : FileOp → Prop} (find : FileTree → Path × Nat) :
    (do let (path, used) ← FileTask.observe find; pure (path, used + 1) :
      FileTask (Path × Nat)).run.Tries kind :=
  FileTask.tries_bind (FileTask.tries_observe find) fun _ => tries_pure _

theorem tries_stagingPath (n : Nat) :
    (s.stagingPath address n).run.Tries (s.StagingStep address) := by
  refine tries_inStagingDirectory ?_
  refine FileTask.tries_bind (tries_createDirectory (by simp [stagingDirectories])) fun _ => ?_
  exact tries_numbered _

theorem tries_removeIfExists {kind : FileOp → Prop} {p : Path} (h : kind (.unlink p)) :
    (removeIfExists p).run.Tries kind :=
  FileTask.tries_during (FileAction.tries_removeIfExists h)

/-- To discard an artifact is to try to remove it and what may hold its debug symbols. -/
theorem tries_discard_of_forall {kind : FileOp → Prop} {artifact : Path}
    (h : ∀ p ∈ artifact :: s.debugVariants artifact, kind (.unlink p)) :
    (s.discard artifact).run.Tries kind := by
  refine FileTask.tries_bind (tries_removeIfExists (h _ List.mem_cons_self)) fun _ => ?_
  exact FileTask.tries_forM fun p hp => tries_removeIfExists (h p (List.mem_cons_of_mem _ hp))

theorem tries_discard (hs : s.WellNamed) (hstaged : s.IsStaged address staged) :
    (s.discard staged).run.Tries (s.StagingStep address) := by
  obtain ⟨_, label, hlabel, rfl⟩ := hstaged
  refine tries_discard_of_forall fun p hp => ?_
  obtain ⟨tail, htail, rfl⟩ := exists_tail_of_mem hs hlabel hp
  exact .remove (isPart_label_append hlabel htail)

/-- A commit that fails disturbs nothing either, as long as none of its undoing steps is refused for
a reason of the system's own. -/
theorem undisturbed_of_failed_commit {events : List FileEvent} {f : Failure} (hs : s.WellNamed)
    (hstaged : s.IsStaged address staged)
    (h : History (s.commit staged address).run t events (.error f) t')
    (hundo : ∀ event ∈ events, IsUndo (asidePath staged) event.op → event.IsNatural) :
    s.Undisturbed address t t' := by
  obtain ⟨haddress, label, hlabel, rfl⟩ := hstaged
  have hcourse := course_of_history (stablePath_eq haddress) h
  cases hfile : t.isFile (s.stagedAs address label) with
  | false =>
      obtain ⟨_, rfl⟩ := hcourse.of_missing hfile
      exact .refl s address _
  | true =>
      obtain ⟨hlayout, hdesk⟩ := exists_layout hs haddress hlabel hfile
      have hback := hcourse.rolledBack hlayout hdesk hundo
      rw [Undisturbed, hlayout.destination_desk]
      exact .of_node hback.workingDirectory hback.node

end Steps

section Published

variable {s : ArtifactStore} {address tail : String} {t now : FileTree} {wd : Location}

/-- What is published under an address is the same: the stable artifact and each of its debug files
is there with the same bytes or not there, as before, and where the path of one leads somewhere, what
is there is the same in every respect. -/
def SamePublished (s : ArtifactStore) (address : String) (t now : FileTree) : Prop :=
  ∀ stable, s.stablePath address = .ok stable → ∀ p ∈ stable :: s.debugVariants stable,
    now.contentAt? (p.destination t.workingDirectory) =
        t.contentAt? (p.destination t.workingDirectory) ∧
      ∀ l, t.locate p = .ok l → now.node? l = t.node? l

theorem length_desk (haddress : isAddress address = true) (wd : Location) :
    ((s.desk address).destination wd).length = (s.programsDir.destination wd).length + 2 := by
  rw [desk, Path.destination_child (isName_of_isAddress haddress).isPart,
    Path.destination_child isName_stagingName.isPart]
  simp

/-- Names of files are no dot names, so none is that of the staging directory. -/
theorem label_append_ne_stagingName (haddress : isAddress address = true) (tail : String) :
    address ++ tail ≠ stagingName := by
  intro heq
  have hdot : '.' ∉ address.toList := notMem_of_isAddress haddress (by decide)
  obtain ⟨c, rest, hcs⟩ := List.exists_cons_of_ne_nil
    (show address.toList ≠ [] by simpa using (isName_of_isAddress haddress).ne_empty)
  have hlist := congrArg (fun text : String => text.toList.head?) heq
  have hhead : stagingName.toList.head? = some '.' := by decide
  simp only [String.toList_append, hcs, List.cons_append, List.head?_cons, hhead] at hlist
  exact hdot (by simp [hcs, Option.some.inj hlist])

theorem StagingPlace.cases {l : Location} (h : s.StagingPlace address wd l)
    (haddress : isAddress address = true) :
    l = (s.desk address).destination wd ∨ l = s.programsDir.destination wd ++ [stagingName] ∨
      ∃ before, before <+: s.programsDir.names ∧
        l = FileTree.lead (s.programsDir.origin wd) before := by
  have hname := (isName_of_isAddress haddress).isPart
  have hstaging : ∀ {before : List String}, before <+: (s.programsDir.child stagingName).names →
      l = FileTree.lead ((s.programsDir.child stagingName).origin wd) before →
        l = s.programsDir.destination wd ++ [stagingName] ∨
          ∃ before, before <+: s.programsDir.names ∧
            l = FileTree.lead (s.programsDir.origin wd) before := by
    intro before hbefore hl
    rcases Path.lead_of_isPrefix_child isName_stagingName.isPart hbefore with hend | ⟨hfirst, hway⟩
    · exact Or.inl (hl.trans hend)
    · exact Or.inr ⟨before, hfirst, hl.trans hway⟩
  obtain ⟨q, hq, before, hbefore, hl⟩ := h
  rcases List.mem_pair.mp hq with rfl | rfl
  · exact Or.inr (hstaging hbefore hl)
  · rcases Path.lead_of_isPrefix_child hname hbefore with hend | ⟨hfirst, hway⟩
    · rw [← Path.destination_child hname] at hend
      exact Or.inl (hl.trans hend)
    · exact Or.inr (hstaging hfirst (hl.trans hway))

/-- The way to the staging directory leads through no stable file of a programs directory that is
there. -/
theorem not_stagingPlace (haddress : isAddress address = true)
    (hhome : t.Reaches s.programsDir (s.programsDir.destination t.workingDirectory))
    (hfree : t.node? (s.programsDir.destination t.workingDirectory ++ [address ++ tail]) = none) :
    ¬s.StagingPlace address t.workingDirectory
      (s.programsDir.destination t.workingDirectory ++ [address ++ tail]) := by
  intro hplace
  rcases hplace.cases haddress with heq | heq | ⟨before, hbefore, heq⟩
  · have hlength := congrArg List.length heq
    rw [length_desk haddress] at hlength
    simp at hlength
  · exact label_append_ne_stagingName haddress tail
      (List.singleton_inj.mp (List.append_cancel_left heq))
  · rw [heq, hhome.directory_of_isPrefix hbefore] at hfree
    cases hfree

/-- What disturbs nothing leaves what is published the same. -/
theorem Undisturbed.samePublished (h : s.Undisturbed address t now) (hs : s.WellNamed) :
    s.SamePublished address t now := by
  intro stable hstable p hp
  by_cases haddress : isAddress address = true
  · obtain rfl := Except.ok.inj ((stablePath_eq haddress).symm.trans hstable)
    obtain ⟨tail, htail, rfl⟩ := exists_tail_of_mem hs haddress hp
    have hpart := isPart_label_append haddress htail
    have hout : ¬(s.desk address).destination t.workingDirectory <+:
        s.programsDir.destination t.workingDirectory ++ [address ++ tail] := by
      intro hbelow
      have hlength := hbelow.length_le
      rw [length_desk haddress] at hlength
      simp at hlength
    refine ⟨?_, fun l hlocate => ?_⟩
    · rw [Path.destination_child hpart]
      exact h.contentAt? hout
    · have hl := FileTree.destination_of_locate hlocate
      rw [Path.destination_child hpart] at hl
      subst hl
      rcases h.node _ hout with hsame | ⟨hplace, hfree, _⟩
      · exact hsame
      · exact absurd hplace
          (not_stagingPlace haddress (FileTree.reaches_of_locate_child hlocate hpart) hfree)
  · rw [stablePath, checkAddress, if_neg haddress] at hstable
    cases hstable

end Published

end ArtifactStore

end Automation
