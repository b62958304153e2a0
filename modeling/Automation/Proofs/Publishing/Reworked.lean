import Automation.Proofs.Files.Sparing
import Automation.Proofs.Publishing.Commit
import Automation.Proofs.Publishing.Staging

/-
How far a compile reaches.

Outside the staging directory of an address a store makes the directories on the way there and
replaces files in the programs directory, and no directory goes away.  So it spares every directory
whose way does not lead through the staging directory, unless the way to that leads through it.
-/

namespace Automation

namespace ArtifactStore

open FileAction

section Moves

variable {b : Bench} {t t' : FileTree} {i : Nat} {tails : List String}

/-- Swaps change stable files, and what is in the staging directory. -/
theorem Swapping.agreesOff {value : List DebugSwap × Except Failure Unit}
    (h : Swapping b.aside i (tails.map b.pair) t value t') (hstands : b.Stands t)
    (htails : ∀ tail ∈ tails, '/' ∉ tail.toList) :
    t.AgreesOff (fun l => (∃ tail, l = b.stableAt tail) ∨ b.Handled i l) t' := by
  induction tails generalizing i t value with
  | nil =>
      cases h with
      | done => exact .refl _ _
  | cons tail rest ih =>
      obtain ⟨htail, hothers⟩ := List.forall_mem_cons.mp htails
      cases h with
      | stuck f => exact .refl _ _
      | unmoved f haside =>
          apply (SetsAside.agreesOff haside hstands htail).mono
          rintro l (⟨-, rfl⟩ | rfl)
          · exact Or.inl ⟨tail, rfl⟩
          · exact Or.inr (Or.inr ⟨i, le_rfl, rfl⟩)
      | next hswap hrest =>
          have hfirst := (hswap.swapped hstands htail).agrees
          have hlater := ih hrest (hswap.stands hstands htail) hothers
          refine (hfirst.mono ?_).trans (hlater.mono ?_)
          · rintro l (⟨other, -, ⟨-, rfl⟩ | ⟨-, rfl⟩⟩ | ⟨k, -, rfl⟩)
            · exact Or.inl ⟨other, rfl⟩
            · exact Or.inr (Or.inl ⟨other, rfl⟩)
            · exact Or.inr (Or.inr ⟨i + k, by omega, rfl⟩)
          · rintro l (hstable | hhandled)
            · exact Or.inl hstable
            · exact Or.inr hhandled.of_succ

/-- Only a file is renamed to the place of a stable file, where no directory has this name. -/
theorem Bench.Stands.agreesOff_rename (h : b.Stands t) {tail : String} (htail : '/' ∉ tail.toList)
    (hnot : t.node? (b.stagedAt tail) ≠ some .directory)
    (hrename : t.rename (b.staged tail) (b.stable tail) = .ok t') :
    t.AgreesOff (fun l => (∃ tail, l = b.stableAt tail) ∨ b.Handled i l) t' := by
  obtain ⟨l, m, hl, -, hkind⟩ := FileTree.rename_ok hrename
  obtain ⟨htakes, rfl⟩ := (h.locate_staged_iff htail).mp hl
  rcases hkind with ⟨content, executable, hnode, -, -⟩ | ⟨hdirectory, -⟩
  · have hfile := (h.isFile_staged_iff htail).mpr ⟨htakes, content, executable, hnode⟩
    refine (h.moved_over htail hfile hrename).2.agreesOff.mono ?_
    rintro l (rfl | rfl)
    · exact Or.inr (Or.inl ⟨tail, rfl⟩)
    · exact Or.inl ⟨tail, rfl⟩
  · exact absurd hdirectory hnot

end Moves

/-- Outside the staging directory of an address no directory has gone away, and nothing has changed but
names in the programs directory and what was missing on the way to the staging directory. -/
structure Reworked (s : ArtifactStore) (address : String) (t now : FileTree) : Prop where
  workingDirectory : now.workingDirectory = t.workingDirectory
  node : ∀ l, ¬(s.desk address).destination t.workingDirectory <+: l →
    now.node? l = t.node? l ∨ t.node? l ≠ some .directory ∧
      (s.StagingPlace address t.workingDirectory l ∨
        ∃ name, l = s.programsDir.destination t.workingDirectory ++ [name])

namespace Reworked

variable {s : ArtifactStore} {address label : String} {t t' now later : FileTree}
  {places : Location → Prop}

theorem refl (s : ArtifactStore) (address : String) (t : FileTree) : s.Reworked address t t :=
  ⟨rfl, fun _ _ => Or.inl rfl⟩

theorem trans (h : s.Reworked address t now) (h' : s.Reworked address now later) :
    s.Reworked address t later := by
  obtain ⟨hwd, hnode⟩ := h'
  rw [h.workingDirectory] at hwd hnode
  refine ⟨hwd, fun l hl => ?_⟩
  rcases hnode l hl with hsame | ⟨hfree, hplace⟩
  · rw [hsame]
    exact h.node l hl
  · rcases h.node l hl with hsame | hbefore
    · exact Or.inr ⟨hsame ▸ hfree, hplace⟩
    · exact Or.inr hbefore

theorem of_undisturbed (h : s.Undisturbed address t now) : s.Reworked address t now := by
  refine ⟨h.workingDirectory, fun l hl => ?_⟩
  rcases h.node l hl with hsame | ⟨hplace, hfree, -⟩
  · exact Or.inl hsame
  · exact Or.inr ⟨by simp [hfree], Or.inl hplace⟩

/-- What is a directory in both trees is the same in both. -/
theorem of_agreesOff (h : t.AgreesOff places now)
    (hplaces : ∀ l, places l → (s.desk address).destination t.workingDirectory <+: l ∨
      ∃ name, l = s.programsDir.destination t.workingDirectory ++ [name]) :
    s.Reworked address t now := by
  refine ⟨h.workingDirectory, fun l hl => ?_⟩
  by_cases hdirectory : t.node? l = some .directory
  · exact Or.inl (((h.directory_iff l).mpr hdirectory).trans hdirectory.symm)
  by_cases hplace : places l
  · exact Or.inr ⟨hdirectory, Or.inr ((hplaces l hplace).resolve_left hl)⟩
  · exact Or.inl (h.node l hplace)

theorem of_bench (h : s.Layout address label) (hwd : t.workingDirectory = t'.workingDirectory)
    (hagrees : t.AgreesOff (fun l => (∃ tail, l = (h.bench t'.workingDirectory).stableAt tail) ∨
      (h.bench t'.workingDirectory).Handled 0 l) now) : s.Reworked address t now := by
  refine of_agreesOff hagrees ?_
  rw [hwd, h.destination_desk]
  rintro l (⟨tail, rfl⟩ | hhandled)
  · exact Or.inr ⟨address ++ tail, rfl⟩
  · refine Or.inl (hhandled.deskAt_isPrefix ?_)
    rw [h.asideAt_eq]
    exact List.prefix_append _ _

end Reworked

section Compiles

variable {s : ArtifactStore} {address : String} {staged : Path} {t t' : FileTree}

/-- Without an address there is no staging directory, and nothing is done there. -/
theorem spared_inStagingDirectory_of_not {α : Type} (h : isAddress address ≠ true) (S : Path)
    (task : Path → FileTask α) (t : FileTree) : S.Spared t
      (FileAction.run (FileTask.ofExcept (s.stagingDirectory address) >>= task).run t).2 := by
  rw [FileTask.run_bind, FileTask.run_ofExcept, stagingDirectory, checkAddress, if_neg h]
  exact .refl S t

/-- The directories that are made on the way to the staging area spare a directory that is not around
them. -/
theorem spared_ensureDirectories {S : Path}
    (haround : (s.programsDir.child stagingName).Avoids t.workingDirectory
      (S.destination t.workingDirectory)) :
    S.Spared t (FileAction.run s.ensureDirectories.run t).2 := by
  have htries : s.ensureDirectories.run.Tries fun op =>
      ∃ p ∈ (s.programsDir.child stagingName).ancestors, p.text ≠ "" ∧ op = .makeDirectory p :=
    FileTask.tries_during (tries_makeDirectories fun p hp hne => ⟨p, hp, hne, rfl⟩)
  apply spared_of_tries htries
  rintro _ now next ⟨p, hp, hne, rfl⟩ hnow happly
  obtain ⟨hfree, rfl⟩ := FileTree.makeDirectory_ok happly
  obtain ⟨hfirst, habsolute⟩ := (Path.names_of_mem_ancestors hp).resolve_left hne
  apply Path.Spared.put_directory hfree
  have hway := haround p.names hfirst
  rwa [Path.origin, ← habsolute, ← Path.origin, ← hnow.workingDirectory] at hway

/-- A commit that succeeds goes no further. -/
theorem Layout.reworked {label : String} (h : s.Layout address label)
    (hdesk : t.Reaches (s.desk address) (h.bench t.workingDirectory).deskAt)
    (hrun : FileAction.run (s.commit (s.stagedAs address label) address).run t = (.ok (), t')) :
    s.Reworked address t t' := by
  obtain ⟨made, t₁, swapped, swaps, t₂, t₃, hfile, hmade, hswapped, hrename, hend⟩ :=
    h.parts_of_run hdesk hrun
  obtain ⟨hstands, hmaking⟩ := h.prepared hdesk hmade
  rw [h.debugPairs_eq t.workingDirectory] at hswapped
  have hswaps := Swapping.agreesOff (b := h.bench t.workingDirectory)
    (swapping_of_history hswapped) hstands h.noSlash_of_mem
  have hstands₂ := hstands.agreesOff hswaps
  -- The staged artifact was a file, and where there was one no directory has been made.
  have hnot : t₂.node? ((h.bench t.workingDirectory).stagedAt s.artifactTail) ≠
      some .directory := by
    rw [Ne, hswaps.directory_iff]
    intro hdirectory
    obtain ⟨-, content, executable, hnode⟩ := (hdesk.isFile_iff h.isName_staged.isPart).mp hfile
    have hcontent := hmaking.contentAt?
      ((h.bench t.workingDirectory).deskAt ++ [label ++ s.artifactTail])
    rw [FileTree.contentAt?_eq_some_iff.mpr ⟨executable, hnode⟩] at hcontent
    obtain ⟨_, hfile₁⟩ := FileTree.contentAt?_eq_some_iff.mp hcontent
    cases hfile₁.symm.trans hdirectory
  have hmoved := hstands₂.agreesOff_rename (i := 0) h.noSlash_artifactTail hnot hrename
  have hagrees := hswaps.trans hmoved
  obtain rfl := hend (hstands.agreesOff hagrees)
  have hdeskAside : (h.bench t.workingDirectory).deskAt <+:
      (h.bench t.workingDirectory).asideAt := by
    rw [h.asideAt_eq]
    exact List.prefix_append _ _
  have hprepared : s.Reworked address t t₁ := by
    refine ⟨hmaking.workingDirectory, fun l hl => Or.inl (hmaking.node?_other ?_)⟩
    rintro rfl
    exact hl (h.destination_desk t.workingDirectory ▸ hdeskAside)
  refine (hprepared.trans (Reworked.of_bench h hmaking.workingDirectory hagrees)).trans ?_
  refine ⟨rfl, fun l hl => Or.inl (FileTree.node?_eraseBelow_other fun hbelow => hl ?_)⟩
  rw [hagrees.workingDirectory, hmaking.workingDirectory, h.destination_desk]
  exact hdeskAside.trans hbelow

/-- However a commit ends, it goes no further. -/
theorem reworked_commit (hs : s.WellNamed) (hstaged : s.IsStaged address staged) (t : FileTree) :
    s.Reworked address t (FileAction.run (s.commit staged address).run t).2 := by
  have hhistory := history_run (s.commit staged address).run t
  have hnatural := isNatural_of_mem_steps (s.commit staged address).run t
  cases hrun : FileAction.run (s.commit staged address).run t with
  | mk result t' =>
  rw [hrun] at hhistory
  cases result with
  | error f =>
      exact .of_undisturbed (undisturbed_of_failed_commit hs hstaged hhistory
        fun event hevent _ => hnatural event hevent)
  | ok _ =>
      obtain ⟨haddress, label, hlabel, rfl⟩ := hstaged
      have hfile := (course_of_history (stablePath_eq haddress) hhistory).isFile_of_ok
      obtain ⟨hlayout, hdesk⟩ := exists_layout hs haddress hlabel hfile
      exact hlayout.reworked hdesk hrun

/-- A directory is spared that is neither below the staging directory of an address nor around the way
to it. -/
theorem Reworked.spared {S : Path} {now : FileTree} (h : s.Reworked address t now)
    (haddress : isAddress address = true)
    (hdirectory : t.node? (S.destination t.workingDirectory) = some .directory)
    (haround : (s.programsDir.child stagingName).Avoids t.workingDirectory
      (S.destination t.workingDirectory))
    (hbelow : S.Avoids t.workingDirectory ((s.desk address).destination t.workingDirectory)) :
    S.Spared t now := by
  refine ⟨h.workingDirectory, fun before hbefore hthere => ?_, fun rest => ?_⟩
  · rcases h.node _ (hbelow before hbefore) with hsame | ⟨hnot, -⟩
    · rw [hsame, hthere]
    · exact absurd hthere hnot
  have hstaging : ¬S.destination t.workingDirectory <+:
      s.programsDir.destination t.workingDirectory ++ [stagingName] := by
    rw [← Path.destination_child isName_stagingName.isPart]
    exact haround _ List.prefix_rfl
  have hhome : ∀ before, before <+: s.programsDir.names →
      ¬S.destination t.workingDirectory <+:
        FileTree.lead (s.programsDir.origin t.workingDirectory) before := by
    intro before hbefore
    have hfirst : before <+: (s.programsDir.child stagingName).names := by
      rw [Path.names_child isName_stagingName.isPart]
      exact hbefore.trans (List.prefix_append _ _)
    have hway := haround before hfirst
    rwa [Path.origin, Path.isAbsolute_child isName_stagingName.isPart] at hway
  -- Neither of the two directories is in the other.
  have houtside : ¬(s.desk address).destination t.workingDirectory <+:
      S.destination t.workingDirectory ++ rest := by
    intro hin
    rcases List.prefix_or_prefix_of_prefix hin (List.prefix_append _ _) with hdesk | hdesk
    · exact hbelow _ List.prefix_rfl hdesk
    · rw [desk, Path.destination_child (isName_of_isAddress haddress).isPart,
        List.prefix_concat_iff, ← Path.destination_child (isName_of_isAddress haddress).isPart,
        Path.destination_child isName_stagingName.isPart] at hdesk
      rcases hdesk with heq | hdesk
      · exact hbelow _ List.prefix_rfl (heq ▸ List.prefix_rfl)
      · exact hstaging hdesk
  rcases h.node _ houtside with hsame | ⟨hnot, hplace | ⟨name, hname⟩⟩
  · exact hsame
  · exfalso
    rcases hplace.cases haddress with heq | heq | ⟨before, hbefore, heq⟩
    · exact houtside (heq ▸ List.prefix_rfl)
    · exact hstaging (heq ▸ List.prefix_append _ _)
    · exact hhome before hbefore (heq ▸ List.prefix_append _ _)
  · exfalso
    have hunder := List.prefix_append (S.destination t.workingDirectory) rest
    rw [hname, List.prefix_concat_iff] at hunder
    rcases hunder with heq | hunder
    · rw [hname, ← heq] at hnot
      exact hnot hdirectory
    · exact hhome _ List.prefix_rfl hunder

end Compiles

end ArtifactStore

end Automation
