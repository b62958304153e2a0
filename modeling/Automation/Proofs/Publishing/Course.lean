import Automation.Proofs.Files.Directories
import Automation.Proofs.Publishing.Names
import Automation.Proofs.Publishing.Swapping

/-
The course of a commit.

A commit prepares a directory, swaps the debug files, replaces the artifact and clears the directory
away.  Whatever the system refuses, its history is put together from those of these parts.
-/

namespace Automation

namespace ArtifactStore

open FileAction

/-- The debug files of two artifacts, side by side. -/
def debugPairs (s : ArtifactStore) (staged stable : Path) : List (Path × Path) :=
  (s.debugVariants staged).zip (s.debugVariants stable)

/-- The ways a commit of a staged artifact can go. -/
inductive CommitCourse (s : ArtifactStore) (staged stable : Path) (t : FileTree) :
    List FileEvent → Except Failure Unit → FileTree → Prop where
  /-- There is no staged artifact. -/
  | missing (f : Failure) (hnone : t.isFile staged = false) :
      CommitCourse s staged stable t [] (.error f) t
  /-- There is no directory for what is set aside. -/
  | unprepared {made : List FileEvent} {t' : FileTree} {e : OsError} (f : Failure)
      (hfile : t.isFile staged = true)
      (hmade : History (FileAction.createDirectory (asidePath staged)) t made (.error e) t') :
      CommitCourse s staged stable t made (.error f) t'
  /-- A debug file or the artifact itself could not be moved. -/
  | undone {made swapped tried restored closing : List FileEvent} {t₁ t₂ t₃ t' : FileTree}
      {swaps : List DebugSwap} {outcome : Except Failure Unit} {removal : Except OsError Unit}
      (f : Failure) (hfile : t.isFile staged = true)
      (hmade : History (FileAction.createDirectory (asidePath staged)) t made (.ok ()) t₁)
      (hswapped : History (swapDebugFiles (asidePath staged) 0 (s.debugPairs staged stable)) t₁
        swapped (swaps, outcome) t₂)
      (htried : ∀ event ∈ tried, event.after = t₂)
      (hrestored : History (restoreDebugFiles swaps) t₂ restored () t₃)
      (hclosing : History (perform (.removeTree (asidePath staged))) t₃ closing removal t') :
      CommitCourse s staged stable t (made ++ (swapped ++ (tried ++ (restored ++ closing))))
        (.error f) t'
  /-- The artifact has been moved. -/
  | published {made swapped closing : List FileEvent} {t₁ t₂ t₃ t' : FileTree}
      {swaps : List DebugSwap} {removal : Except OsError Unit} (hfile : t.isFile staged = true)
      (hmade : History (FileAction.createDirectory (asidePath staged)) t made (.ok ()) t₁)
      (hswapped : History (swapDebugFiles (asidePath staged) 0 (s.debugPairs staged stable)) t₁
        swapped (swaps, .ok ()) t₂)
      (hrename : t₂.rename staged stable = .ok t₃)
      (hclosing : History (perform (.removeTree (asidePath staged))) t₃ closing removal t') :
      CommitCourse s staged stable t
        (made ++ (swapped ++ ⟨t₂, .rename staged stable, .ok (), t₃⟩ :: closing)) (.ok ()) t'

section Histories

variable {s : ArtifactStore} {staged stable aside : Path} {t t' : FileTree}
  {events : List FileEvent} {result : Except Failure Unit}

theorem history_undo {swaps : List DebugSwap} {f : Failure}
    (h : History (do restoreDebugFiles swaps; pure (.error f)) t events result t') :
    result = .error f ∧ History (restoreDebugFiles swaps) t events () t' := by
  obtain ⟨restored, _, t₁, last, rfl, hrestored, hlast⟩ := history_bind_iff.mp h
  obtain ⟨rfl, rfl, rfl⟩ := history_pure_iff.mp hlast
  rw [List.append_nil]
  exact ⟨rfl, hrestored⟩

/-- What has been swapped is undone when a step fails, and the artifact is moved last. -/
theorem history_publish (h : History (s.publish staged stable aside) t events result t') :
    ∃ swapped swaps outcome t₁, History (swapDebugFiles aside 0 (s.debugPairs staged stable)) t
        swapped (swaps, outcome) t₁ ∧
      ((outcome = .ok () ∧ result = .ok () ∧ t₁.rename staged stable = .ok t' ∧
          events = swapped ++ [⟨t₁, .rename staged stable, .ok (), t'⟩]) ∨
        ∃ f tried restored, result = .error f ∧ (∀ event ∈ tried, event.after = t₁) ∧
          History (restoreDebugFiles swaps) t₁ restored () t' ∧
            events = swapped ++ (tried ++ restored)) := by
  rw [publish, history_bind_iff] at h
  obtain ⟨swapped, ⟨swaps, outcome⟩, t₁, second, rfl, hswapped, hsecond⟩ := h
  refine ⟨swapped, swaps, outcome, t₁, hswapped, ?_⟩
  cases outcome with
  | error f =>
      obtain ⟨rfl, hrestored⟩ := history_undo hsecond
      exact Or.inr ⟨f, [], second, rfl, by simp, hrestored, rfl⟩
  | ok _ =>
      obtain ⟨tried, final, t₂, last, rfl, htried, hlast⟩ := history_bind_iff.mp hsecond
      rcases FileTask.history_during_iff.mp htried with ⟨_, rfl, hdone⟩ | ⟨e, rfl, hrefused⟩
      · rcases history_perform_iff.mp hdone with ⟨happly, _, rfl⟩ | ⟨_, herror, _⟩
        · obtain ⟨rfl, rfl, rfl⟩ := history_pure_iff.mp hlast
          exact Or.inl ⟨rfl, rfl, happly, by rw [List.append_nil]⟩
        · cases herror
      · rcases history_perform_iff.mp hrefused with ⟨_, hok, _⟩ | ⟨_, _, rfl, rfl⟩
        · cases hok
        · obtain ⟨rfl, hrestored⟩ := history_undo hlast
          exact Or.inr ⟨_, _, last, rfl, by simp, hrestored, rfl⟩

/-- Every history of a commit is one of these courses. -/
theorem course_of_history {address : String} (hstable : s.stablePath address = .ok stable)
    (h : History (s.commit staged address).run t events result t') :
    CommitCourse s staged stable t events result t' := by
  rw [commit, hstable] at h
  rcases FileTask.history_bind_iff.mp h with
    ⟨f, rfl, hpath⟩ | ⟨first, path, t₁, second, rfl, hpath, hsecond⟩
  · obtain ⟨_, herror, _⟩ := history_pure_iff.mp hpath
    cases herror
  obtain ⟨rfl, hok, rfl⟩ := history_pure_iff.mp hpath
  obtain rfl := Except.ok.inj hok
  rcases FileTask.history_bind_iff.mp hsecond with
    ⟨f, rfl, hfound⟩ | ⟨third, found, t₂, fourth, rfl, hthird, hfourth⟩
  · obtain ⟨_, herror, _⟩ := FileTask.history_lift_iff.mp hfound
    cases herror
  obtain ⟨_, hok, hlook⟩ := FileTask.history_lift_iff.mp hthird
  obtain rfl := Except.ok.inj hok
  obtain ⟨rfl, rfl, rfl⟩ := history_observe_iff.mp hlook
  rw [List.nil_append, List.nil_append]
  split at hfourth
  · next hfile =>
    rcases FileTask.history_bind_iff.mp hfourth with
      ⟨f, rfl, hmade⟩ | ⟨made, _, t₃, fifth, rfl, hmade, hfifth⟩
    · rcases FileTask.history_during_iff.mp hmade with ⟨_, hok, _⟩ | ⟨e, _, hrefused⟩
      · cases hok
      · exact .unprepared f hfile hrefused
    rcases FileTask.history_during_iff.mp hmade with ⟨_, _, hmade⟩ | ⟨_, herror, _⟩
    · rcases FileTask.history_bind_iff.mp hfifth with
        ⟨f, rfl, hpublish⟩ | ⟨sixth, final, t₄, seventh, rfl, hpublish, hseventh⟩
      · obtain ⟨_, hok, _⟩ := FileTask.history_lift_iff.mp hpublish
        cases hok
      obtain ⟨_, hok, hpublish⟩ := FileTask.history_lift_iff.mp hpublish
      obtain rfl := Except.ok.inj hok
      rcases FileTask.history_bind_iff.mp hseventh with
        ⟨f, rfl, hremove⟩ | ⟨closing, removal, t₅, ending, rfl, hremove, hending⟩
      · obtain ⟨_, hok, _⟩ := FileTask.history_lift_iff.mp hremove
        cases hok
      obtain ⟨_, hok, hclosing⟩ := FileTask.history_lift_iff.mp hremove
      obtain rfl := Except.ok.inj hok
      obtain ⟨rfl, rfl, rfl⟩ := history_pure_iff.mp hending
      rw [List.append_nil]
      obtain ⟨swapped, swaps, outcome, t₆, hswapped, hend⟩ := history_publish hpublish
      rcases hend with ⟨rfl, rfl, hrename, rfl⟩ | ⟨f, tried, restored, rfl, htried, hrestored, rfl⟩
      · simp only [List.append_assoc, List.singleton_append]
        exact .published hfile hmade hswapped hrename hclosing
      · simp only [List.append_assoc]
        exact .undone f hfile hmade hswapped htried hrestored hclosing
    · cases herror
  · next hnone =>
    obtain ⟨rfl, rfl, rfl⟩ := history_pure_iff.mp hfourth
    exact .missing _ (Bool.not_eq_true _ ▸ hnone)

end Histories

theorem isName_stagingName : IsName stagingName := by
  constructor <;> decide

namespace Layout

variable {s : ArtifactStore} {address label : String} {t t' t₁ : FileTree}
  {made : List FileEvent}

/-- The places of a commit, as seen from a working directory. -/
def bench (h : s.Layout address label) (wd : Location) : Bench :=
  { home := s.programsDir
    desk := s.desk address
    aside := asidePath (s.stagedAs address label)
    homeAt := s.programsDir.destination wd
    deskAt := s.programsDir.destination wd ++ [stagingName, address]
    asideAt := s.programsDir.destination wd ++ [stagingName, address, label ++ s.asideTail]
    address := address
    label := label
    isAddress_address := h.address
    isAddress_label := h.label
    deskDepth := by simp
    asideDepth := by simp }

theorem destination_desk (h : s.Layout address label) (wd : Location) :
    (s.desk address).destination wd = (h.bench wd).deskAt := by
  rw [desk, Path.destination_child (isName_of_isAddress h.address).isPart,
    Path.destination_child isName_stagingName.isPart, List.append_assoc]
  rfl

theorem asideAt_eq (h : s.Layout address label) (wd : Location) :
    (h.bench wd).asideAt = (h.bench wd).deskAt ++ [label ++ s.asideTail] := by
  simp [bench]

theorem destination_aside (h : s.Layout address label) (wd : Location) :
    (asidePath (s.stagedAs address label)).destination wd = (h.bench wd).asideAt := by
  rw [h.aside_eq, Path.destination_child h.isName_aside.isPart, h.destination_desk, h.asideAt_eq]

theorem noSlash_artifactTail (h : s.Layout address label) : '/' ∉ s.artifactTail.toList := by
  simp [artifactTail, h.noSlash]

theorem noSlash_of_mem (h : s.Layout address label) :
    ∀ tail ∈ s.variantTails, '/' ∉ tail.toList :=
  fun _ htail => noSlash_variantTail h.toWellNamed htail

theorem debugPairs_eq (h : s.Layout address label) (wd : Location) :
    s.debugPairs (s.stagedAs address label) (s.stableAs address) =
      s.variantTails.map (h.bench wd).pair := by
  rw [debugPairs, h.debugVariants_staged, h.debugVariants_stable, List.zip_map']
  rfl

/-- The stable artifact and its debug files lie in the programs directory. -/
theorem locate_stable (h : s.Layout address label) {l : Location} {p : Path}
    (hhome : t.Reaches s.programsDir (s.programsDir.destination t.workingDirectory))
    (hp : p ∈ s.stableAs address :: s.debugVariants (s.stableAs address))
    (hlocate : t.locate p = .ok l) :
    ∃ tail, l = (h.bench t.workingDirectory).stableAt tail := by
  obtain ⟨tail, htail, rfl⟩ := exists_tail_of_mem h.toWellNamed h.address hp
  exact ⟨tail, ((hhome.locate_iff (isPart_label_append h.address htail)).mp hlocate).2⟩

theorem reaches_home (h : s.Layout address label)
    (hdesk : t.Reaches (s.desk address) (h.bench t.workingDirectory).deskAt) :
    t.Reaches s.programsDir (s.programsDir.destination t.workingDirectory) :=
  (hdesk.parent (isName_of_isAddress h.address)).parent isName_stagingName

/-- What has been prepared is a bench to work on, and nothing else has changed. -/
theorem prepared (h : s.Layout address label)
    (hdesk : t.Reaches (s.desk address) (h.bench t.workingDirectory).deskAt)
    (hmade : History (FileAction.createDirectory (asidePath (s.stagedAs address label))) t made
      (.ok ()) t₁) :
    (h.bench t.workingDirectory).Stands t₁ ∧
      Making t (asidePath (s.stagedAs address label)) (h.bench t.workingDirectory).asideAt made
        (.ok ()) t₁ := by
  have hpath := h.aside_eq
  have hplace := h.asideAt_eq t.workingDirectory
  rw [hpath] at hmade
  have hmaking := making_createDirectory hdesk h.isName_aside hmade
  have hdesk₁ := hdesk.of_kept hmaking.workingDirectory fun _ => hmaking.directory
  have hdirectory := hmaking.made rfl
  rw [FileTree.isDirectory_child_iff h.isName_aside, hdesk₁.destination] at hdirectory
  have haside := hdesk₁.child h.isName_aside hdirectory.2.1.1 hdirectory.2.2
  rw [← hpath, ← hplace] at haside
  rw [← hpath, ← hplace] at hmaking
  have hhome := (h.reaches_home hdesk).of_kept hmaking.workingDirectory fun _ => hmaking.directory
  exact ⟨⟨hhome, hdesk₁, haside⟩, hmaking⟩

end Layout

/-- Where there is a staged artifact, its directory can be reached and all its names are names of
files. -/
theorem exists_layout {s : ArtifactStore} {address label : String} {t : FileTree}
    (hs : s.WellNamed) (haddress : isAddress address = true) (hlabel : isAddress label = true)
    (hfile : t.isFile (s.stagedAs address label) = true) :
    ∃ h : s.Layout address label,
      t.Reaches (s.desk address) (h.bench t.workingDirectory).deskAt := by
  obtain ⟨l, _, _, hlocate, _⟩ := FileTree.isFile_eq_true_iff.mp hfile
  have hnul : '\x00' ∉ s.extension.toList := by
    intro hmem
    refine FileTree.noNul_of_locate hlocate (Path.mem_child ?_ _)
    simp [artifactTail, hmem]
  have hlayout : s.Layout address label := ⟨hs, hnul, haddress, hlabel⟩
  rw [stagedAs, FileTree.locate_child_eq_ok_iff hlayout.isName_staged] at hlocate
  rw [hlayout.destination_desk] at hlocate
  exact ⟨hlayout, hlocate.1⟩

/-- A staged artifact that is there has been handed out under a label, and its directory can be
reached. -/
theorem HandsOut.exists_layout {s : ArtifactStore} {address : String} {staged : Path}
    {t : FileTree} (hout : s.HandsOut address staged) (hs : s.WellNamed)
    (hfile : t.isFile staged = true) :
    ∃ label, ∃ h : s.Layout address label, staged = s.stagedAs address label ∧
      t.Reaches (s.desk address) (h.bench t.workingDirectory).deskAt := by
  obtain ⟨haddress, label, hlabel, rfl⟩ := hout.exists_label
  obtain ⟨hlayout, hdesk⟩ := ArtifactStore.exists_layout hs haddress hlabel hfile
  exact ⟨label, hlayout, rfl, hdesk⟩

/-- Where nothing has been staged for an address yet, the first name of all is handed out. -/
theorem handsOut_first {s : ArtifactStore} {address label : String} {t : FileTree} {d : Location}
    (h : s.Layout address label) (hlabel : label = String.ofList (freshName stagedWidth 0))
    (hreaches : t.Reaches (s.programsDir.child stagingName) d)
    (hfits : FileTree.Fits (s.programsDir.child stagingName) address)
    (hfree : ∀ l, d ++ [address] <+: l → t.node? l = none) :
    s.HandsOut address (s.stagedAs address label) := by
  have hname := isName_of_isAddress h.address
  have hmade := run_createDirectory_child hreaches hname hfits (hfree _ List.prefix_rfl)
  have hpath : s.stagedPath (s.desk address) 0 = s.stagedAs address label := by
    rw [stagedPath, ← hlabel, String.append_assoc]
    rfl
  have hnone : (t.put (d ++ [address]) .directory).exists? (s.stagedPath (s.desk address) 0) =
      false := by
    rw [hpath]
    refine FileTree.exists?_eq_false fun l hlocate => ?_
    have hl := FileTree.destination_of_locate hlocate
    change l = (s.stagedAs address label).destination t.workingDirectory at hl
    rw [stagedAs, Path.destination_child h.isName_staged.isPart, desk, Path.destination_child hname.isPart,
      hreaches.destination] at hl
    subst hl
    rw [FileTree.node?_put_other _ fun heq => by simp at heq]
    exact hfree _ (List.prefix_append _ _)
  have hdirectory : s.stagingDirectory address = .ok (s.desk address) := by
    rw [stagingDirectory, checkAddress, if_pos h.address]
    rfl
  have hvalue : (FileAction.run (s.stagingPath address 0).run t).1 =
      .ok (s.stagedAs address label, 1) := by
    rw [stagingPath, FileTask.run_bind, FileTask.run_ofExcept, hdirectory]
    dsimp only
    rw [FileTask.run_bind, createDirectory, FileTask.run_during, desk, hmade]
    dsimp only
    rw [FileTask.run_bind, FileTask.run_observe]
    dsimp only
    rw [firstFree, ← desk, hnone, if_neg Bool.false_ne_true, hpath]
    rfl
  exact handsOut_of_run hvalue

end ArtifactStore

end Automation
