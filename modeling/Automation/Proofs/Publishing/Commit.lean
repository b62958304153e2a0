import Automation.Proofs.Publishing.Switch

/-
Commits that succeed.

When a commit has gone through, everything that was staged is in its place and nothing else has
changed.  The names that it needed were not too long: the debug file of an artifact has a longer name
than the artifact, and what is set aside a longer path.
-/

namespace Automation

/-- The name of a path and the path itself are not too long for a file system. -/
def Path.IsShort (p : Path) : Prop :=
  (∀ name, p.fileName? = some name → name.utf8ByteSize ≤ FileTree.nameLimit) ∧
    p.text.utf8ByteSize ≤ FileTree.pathLimit

theorem Path.isShort_child_iff {p : Path} {name : String} (h : IsName name) :
    (p.child name).IsShort ↔ FileTree.Fits p name := by
  rw [IsShort, fileName?_child h.isPart, FileTree.Fits]
  simp

instance (p : Path) : Decidable p.IsShort :=
  inferInstanceAs (Decidable ((∀ name ∈ p.fileName?, name.utf8ByteSize ≤ FileTree.nameLimit) ∧
    p.text.utf8ByteSize ≤ FileTree.pathLimit))

/-- No directory on the way of a path is at a location or below it. -/
def Path.Avoids (p : Path) (wd l : Location) : Prop :=
  ∀ before, before <+: p.names → ¬l <+: FileTree.lead (p.origin wd) before

instance (p : Path) (wd l : Location) : Decidable (p.Avoids wd l) :=
  decidable_of_iff (∀ before ∈ p.names.inits, ¬l <+: FileTree.lead (p.origin wd) before)
    (by simp only [List.mem_inits, Path.Avoids])

namespace FileTree

variable {t t' : FileTree} {p : Path} {d l : Location}

/-- There is nothing at a path and below it. -/
def Unused (t : FileTree) (p : Path) : Prop :=
  ∀ l, p.destination t.workingDirectory <+: l → t.node? l = none

/-- To be sure of that, it is enough to go through what there is. -/
theorem unused_of_entries
    (h : t.entries.all (fun entry => !(p.destination t.workingDirectory).isPrefixOf entry.1) = true)
    (hroot : p.destination t.workingDirectory ≠ []) : t.Unused p := by
  intro l hl
  have hne : l ≠ [] := by
    rintro rfl
    exact hroot (List.prefix_nil.mp hl)
  rw [node?, if_neg hne]
  cases hget : Table.get? l t.entries with
  | none => rfl
  | some n =>
      have hnot := List.all_eq_true.mp h _ (Table.mem_of_get? hget)
      rw [List.isPrefixOf_iff_prefix.mpr hl] at hnot
      cases hnot

/-- What is not there is on no way. -/
theorem Reaches.avoids (h : t.Reaches p d) (hfree : ∀ other, l <+: other → t.node? other = none) :
    p.Avoids t.workingDirectory l := by
  intro before hbefore hbelow
  have hdirectory := h.directory_of_isPrefix hbefore
  rw [hfree _ hbelow] at hdirectory
  cases hdirectory

/-- What does not lie on the way of a path can be removed. -/
theorem Reaches.of_cleared (h : t.Reaches p d) (hwd : t'.workingDirectory = t.workingDirectory)
    (havoids : p.Avoids t.workingDirectory l)
    (hkept : ∀ other, ¬l <+: other → t'.node? other = t.node? other) : t'.Reaches p d := by
  refine h.mono hwd fun before hbefore hdirectory => ?_
  rw [hkept _ (havoids before hbefore), hdirectory]

end FileTree

namespace ArtifactStore

open FileAction

/-- There is a staged artifact, no use is made of the path for what is set aside, and no directory
is in the way. -/
structure Committable (s : ArtifactStore) (staged stable : Path) (t : FileTree) : Prop where
  isFile : t.isFile staged = true
  unused : t.Unused (asidePath staged)
  free : ∀ p ∈ stable :: s.debugVariants stable, t.isDirectory p = false

/-- The paths that a commit needs are short enough: that of the directory for what is set aside,
those of the files that go there, and those that files are moved to. -/
structure Fitting (s : ArtifactStore) (staged stable : Path) (t : FileTree) : Prop where
  aside : (asidePath staged).IsShort
  artifact : stable.IsShort
  moved : ∀ pair ∈ s.debugPairs staged stable, t.isFile pair.1 = true → pair.2.IsShort
  kept : ∀ (i : Nat) p, (s.debugVariants stable)[i]? = some p → t.isFile p = true →
    ((asidePath staged).child (toString i)).IsShort

/-- What was staged in one tree is published in another, and nothing else is changed. -/
structure IsPublished (s : ArtifactStore) (address : String) (staged stable : Path)
    (t t' : FileTree) : Prop where
  artifact : t'.content? stable = t.content? staged
  symbols : ∀ pair ∈ s.debugPairs staged stable, t'.content? pair.2 = t.content? pair.1
  noStaged : t'.exists? staged = false
  noSymbols : ∀ p ∈ s.debugVariants staged, t'.isFile p = false
  noAside : ∀ l, (asidePath staged).destination t.workingDirectory <+: l → t'.node? l = none
  others : ∀ l, ¬(asidePath staged).destination t.workingDirectory <+: l →
    (∀ p ∈ staged :: stable :: (s.debugVariants staged ++ s.debugVariants stable),
      t.locate p ≠ .ok l) → t'.node? l = t.node? l
  read : ∃ bytes, t.content? staged = some bytes ∧
    FileAction.run (s.read address).run t' = (.ok (s.stagedImage staged bytes t), t')

section

variable {s : ArtifactStore} {address label : String} {t t' : FileTree}

namespace Layout

theorem destination_staged (h : s.Layout address label) (wd : Location) :
    (s.stagedAs address label).destination wd = (h.bench wd).stagedAt s.artifactTail := by
  rw [stagedAs, Path.destination_child h.isName_staged.isPart, h.destination_desk]
  rfl

theorem fits_aside (h : s.Layout address label) {t₁ : FileTree} {made : List FileEvent}
    (hmaking : Making t (asidePath (s.stagedAs address label)) (h.bench t.workingDirectory).asideAt
      made (.ok ()) t₁) : FileTree.Fits (s.desk address) (label ++ s.asideTail) := by
  have hdirectory := hmaking.made rfl
  rw [h.aside_eq, FileTree.isDirectory_child_iff h.isName_aside] at hdirectory
  exact hdirectory.2.1

/-- The parts of a run that succeeded.  The directory for what was set aside is gone at its end. -/
theorem parts_of_run (h : s.Layout address label)
    (hdesk : t.Reaches (s.desk address) (h.bench t.workingDirectory).deskAt)
    (hrun : FileAction.run (s.commit (s.stagedAs address label) address).run t = (.ok (), t')) :
    ∃ made t₁ swapped swaps t₂ t₃, t.isFile (s.stagedAs address label) = true ∧
      History (FileAction.createDirectory (asidePath (s.stagedAs address label))) t made
        (.ok ()) t₁ ∧
      History (swapDebugFiles (asidePath (s.stagedAs address label)) 0
        (s.debugPairs (s.stagedAs address label) (s.stableAs address))) t₁ swapped
          (swaps, .ok ()) t₂ ∧
      t₂.rename (s.stagedAs address label) (s.stableAs address) = .ok t₃ ∧
      ((h.bench t.workingDirectory).Stands t₃ →
        t' = t₃.eraseBelow (h.bench t.workingDirectory).asideAt) := by
  have hhistory := history_run (s.commit (s.stagedAs address label) address).run t
  have hnatural := isNatural_of_mem_steps (s.commit (s.stagedAs address label) address).run t
  rw [hrun] at hhistory
  generalize FileAction.steps (s.commit (s.stagedAs address label) address).run t = events
    at hhistory hnatural
  have hcourse := course_of_history (stablePath_eq h.address) hhistory
  cases hcourse with
  | @published made swapped closing t₁ t₂ t₃ _ swaps removal hfile hmade hswapped hrename hclosing =>
      refine ⟨made, t₁, swapped, swaps, t₂, t₃, hfile, hmade, hswapped, hrename, fun hstands => ?_⟩
      have hfits := h.fits_aside (h.prepared hdesk hmade).2
      have hlocate : t₃.locate ((s.desk address).child (label ++ s.asideTail)) =
          .ok ((h.bench t.workingDirectory).deskAt ++ [label ++ s.asideTail]) :=
        hstands.desk.locate_child h.isName_aside hfits
      rw [← h.aside_eq, ← h.asideAt_eq] at hlocate
      have hremove : t₃.removeTree (asidePath (s.stagedAs address label)) =
          .ok (t₃.eraseBelow (h.bench t.workingDirectory).asideAt) := by
        rw [FileTree.removeTree, hlocate]
        simp only [hstands.aside.directory]
      have hend := hclosing.run_eq fun event hevent => hnatural event (by simp [hevent])
      have happly : (FileOp.removeTree (asidePath (s.stagedAs address label))).apply t₃ =
          .ok (t₃.eraseBelow (h.bench t.workingDirectory).asideAt) := hremove
      rw [run_perform_ok happly] at hend
      exact (Prod.mk.inj hend).2.symm

/-- A commit that succeeded had names that are short enough. -/
theorem fitting (h : s.Layout address label) (hs : s.Distinct)
    (hdesk : t.Reaches (s.desk address) (h.bench t.workingDirectory).deskAt)
    (hrun : FileAction.run (s.commit (s.stagedAs address label) address).run t = (.ok (), t')) :
    s.Fitting (s.stagedAs address label) (s.stableAs address) t := by
  obtain ⟨made, t₁, swapped, swaps, t₂, t₃, hfile, hmade, hswapped, hrename, _⟩ :=
    h.parts_of_run hdesk hrun
  obtain ⟨hstands, hmaking⟩ := h.prepared hdesk hmade
  obtain ⟨hswitched, hdone, _⟩ := h.switched hs hdesk hfile hmade hswapped hrename
  refine ⟨?_, (Path.isShort_child_iff h.isName_stable).mpr hswitched.takes.2,
    fun pair hpair hstaged => ?_, fun i p hp hstable => ?_⟩
  · rw [h.aside_eq]
    exact (Path.isShort_child_iff h.isName_aside).mpr (h.fits_aside hmaking)
  · rw [h.debugPairs_eq t.workingDirectory] at hpair
    obtain ⟨tail, htail, rfl⟩ := List.mem_map.mp hpair
    have hstaged₁ := (hdesk.isFile_congr hstands.desk (h.isPart_staged htail)
      (hmaking.contentAt? _)).trans hstaged
    obtain ⟨htakes, _⟩ := hdone.moved tail htail hstaged₁
    exact (Path.isShort_child_iff ((h.isPart_stable htail).isName htakes.1)).mpr htakes.2
  · rw [h.debugVariants_stable, List.getElem?_map] at hp
    obtain ⟨tail, htail, rfl⟩ := Option.map_eq_some_iff.mp hp
    have hstable₁ := ((h.reaches_home hdesk).isFile_congr hstands.home
      (h.isPart_stable (List.mem_of_getElem? htail)) (hmaking.contentAt? _)).trans hstable
    have htakes := hdone.kept i tail htail hstable₁
    rw [Nat.zero_add] at htakes
    exact (Path.isShort_child_iff ((Bench.isPart_kept i).isName htakes.1)).mpr htakes.2

/-- A commit that succeeded has published what was staged. -/
theorem isPublished (h : s.Layout address label) (hs : s.Distinct)
    (hdesk : t.Reaches (s.desk address) (h.bench t.workingDirectory).deskAt)
    (havoids : s.programsDir.Avoids t.workingDirectory (h.bench t.workingDirectory).asideAt)
    (hrun : FileAction.run (s.commit (s.stagedAs address label) address).run t = (.ok (), t')) :
    s.IsPublished address (s.stagedAs address label) (s.stableAs address) t t' := by
  obtain ⟨made, t₁, swapped, swaps, t₂, t₃, hfile, hmade, hswapped, hrename, hend⟩ :=
    h.parts_of_run hdesk hrun
  obtain ⟨hstands, hmaking⟩ := h.prepared hdesk hmade
  obtain ⟨hswitched, hdone, hmoved⟩ := h.switched hs hdesk hfile hmade hswapped hrename
  obtain rfl := hend hswitched.stands
  have hwd : t₃.workingDirectory = t.workingDirectory :=
    hmoved.workingDirectory.trans (hdone.agrees.workingDirectory.trans hmaking.workingDirectory)
  have hcleared : ∀ l, (t₃.eraseBelow (h.bench t.workingDirectory).asideAt).node? l =
      if (h.bench t.workingDirectory).asideAt <+: l then none else t₃.node? l :=
    fun l => FileTree.node?_eraseBelow_of_ne (h.bench t.workingDirectory).asideAt_ne_nil
  have hkept : ∀ l, ¬(h.bench t.workingDirectory).asideAt <+: l →
      (t₃.eraseBelow (h.bench t.workingDirectory).asideAt).node? l = t₃.node? l :=
    fun l hl => FileTree.node?_eraseBelow_other hl
  have hvisible : Visible s (h.bench t.workingDirectory) t
      (t₃.eraseBelow (h.bench t.workingDirectory).asideAt) :=
    hswitched.congr hs.toWellNamed (hswitched.home.of_cleared rfl (hwd ▸ havoids) hkept)
      fun tail => hkept _ (Bench.not_asideAt_isPrefix _ tail)
  obtain ⟨bytes, hbytes⟩ := Option.isSome_iff_exists.mp (FileTree.isFile_eq_isSome t _ ▸ hfile)
  obtain ⟨_, hat⟩ := (hdesk.content?_iff h.isName_staged.isPart).mp hbytes
  have hplace : (s.desk address).destination
      (t₃.eraseBelow (h.bench t.workingDirectory).asideAt).workingDirectory =
        (h.bench t.workingDirectory).deskAt := hwd ▸ h.destination_desk t.workingDirectory
  refine
    { artifact := (h.content?_stable hvisible hat).trans hbytes.symm
      symbols := fun pair hpair => ?_
      noStaged := FileTree.exists?_eq_false fun l hlocate => ?_
      noSymbols := fun p hp => ?_
      noAside := fun l hl => ?_
      others := fun l haside hplaces => ?_
      read := ⟨bytes, hbytes, h.run_read hvisible hat⟩ }
  · rw [h.debugPairs_eq t.workingDirectory] at hpair
    obtain ⟨tail, htail, rfl⟩ := List.mem_map.mp hpair
    exact hvisible.symbols tail htail
  · have hreaches := FileTree.reaches_of_locate_child hlocate h.isName_staged.isPart
    obtain ⟨_, rfl⟩ := (hreaches.locate_iff h.isName_staged.isPart).mp hlocate
    have hnone := hswitched.noArtifact
    rw [hcleared, hplace]
    rw [Bench.stagedAt] at hnone
    exact ite_eq_left_iff.mpr fun _ => hnone
  · rw [h.debugVariants_staged] at hp
    obtain ⟨tail, htail, rfl⟩ := List.mem_map.mp hp
    rw [← Bool.not_eq_true]
    intro hleft
    obtain ⟨l, content, executable, hlocate, hnode⟩ := FileTree.isFile_eq_true_iff.mp hleft
    have hreaches := FileTree.reaches_of_locate_child hlocate (h.isPart_staged htail)
    obtain ⟨htakes, rfl⟩ := (hreaches.locate_iff (h.isPart_staged htail)).mp hlocate
    rw [hcleared, hplace] at hnode
    split at hnode
    · cases hnode
    · have hstaged := (hswitched.stands.isFile_staged_iff (h.noSlash_of_mem tail htail)).mpr
        ⟨htakes, content, executable, hnode⟩
      exact Bool.false_ne_true ((hswitched.noSymbols tail htail).symm.trans hstaged)
  · rw [h.destination_aside] at hl
    rw [hcleared, if_pos hl]
  · rw [h.destination_aside] at haside
    rw [hkept l haside]
    refine hswitched.others l ?_ ?_ ?_ ?_
    · rintro rfl
      exact hplaces (s.stagedAs address label) List.mem_cons_self ((hdesk.locate_iff h.isName_staged.isPart).mpr
        ⟨(hdesk.isFile_iff h.isName_staged.isPart).mp hfile |>.1, rfl⟩)
    · rintro rfl
      exact hplaces (s.stableAs address) (by simp) (((h.reaches_home hdesk).locate_iff h.isName_stable.isPart).mpr
        ⟨hswitched.takes, rfl⟩)
    · rintro rfl
      exact haside List.prefix_rfl
    · rintro (⟨tail, htail, ⟨htakes, rfl⟩ | ⟨htakes, rfl⟩⟩ | ⟨k, _, rfl⟩)
      · refine hplaces (s.programsDir.child (address ++ tail)) ?_
          (((h.reaches_home hdesk).locate_iff (h.isPart_stable htail)).mpr ⟨htakes, rfl⟩)
        rw [h.debugVariants_stable]
        simp [List.mem_map_of_mem htail]
      · refine hplaces ((s.desk address).child (label ++ tail)) ?_
          ((hdesk.locate_iff (h.isPart_staged htail)).mpr ⟨htakes, rfl⟩)
        rw [h.debugVariants_staged]
        simp [List.mem_map_of_mem htail]
      · exact haside (List.prefix_append _ _)

/-- Where the place for what is set aside is unused, no way leads through it. -/
theorem avoids (h : s.Layout address label)
    (hdesk : t.Reaches (s.desk address) (h.bench t.workingDirectory).deskAt)
    (hway : t.Unused (asidePath (s.stagedAs address label)) ∨
      s.programsDir.Avoids t.workingDirectory
        ((asidePath (s.stagedAs address label)).destination t.workingDirectory)) :
    s.programsDir.Avoids t.workingDirectory (h.bench t.workingDirectory).asideAt := by
  rw [← h.destination_aside]
  rcases hway with hunused | havoids
  · exact (h.reaches_home hdesk).avoids hunused
  · exact havoids

end Layout

/-- Without a staged artifact no commit succeeds. -/
theorem CommitCourse.isFile_of_ok {staged stable : Path} {events : List FileEvent}
    (h : CommitCourse s staged stable t events (.ok ()) t') : t.isFile staged = true := by
  cases h with
  | published hfile hmade hswapped hrename hclosing => exact hfile

end

end ArtifactStore

end Automation
