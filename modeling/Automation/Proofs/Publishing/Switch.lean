import Automation.Proofs.Publishing.Course
import Automation.Proofs.Publishing.Swapped

/-
The switch to a new build.

Once the artifact has been moved, all of the build is in its place: a reader gets the artifact that
was staged, with the first of the debug files that were staged under an added extension, and nothing
of the build before.
-/

namespace Automation

namespace FileTask

variable {α : Type}

theorem run_inspect_ok {activity : Activity} {f : FileTree → Except OsError α} {t : FileTree}
    {value : α} (h : f t = .ok value) :
    FileAction.run (inspect activity f).run t = (.ok value, t) := by
  rw [inspect, run_during, FileAction.run_observe, h]

end FileTask

namespace ArtifactStore

open FileAction

section Reading

variable {s : ArtifactStore} {address : String} {stable : Path} {t : FileTree}
  {bytes : ByteArray}

theorem readBytes_of_content? {p : Path} (h : t.content? p = some bytes) :
    t.readBytes p = .ok bytes := by
  rw [FileTree.content?] at h
  cases hread : t.readBytes p with
  | error e =>
      rw [hread] at h
      cases h
  | ok found =>
      rw [hread] at h
      rw [Option.some.inj h]

theorem findSome?_congr {α β : Type} {f g : α → Option β} {xs : List α}
    (h : ∀ x ∈ xs, f x = g x) : xs.findSome? f = xs.findSome? g := by
  induction xs with
  | nil => rfl
  | cons x rest ih =>
      rw [List.findSome?_cons, List.findSome?_cons, h x List.mem_cons_self,
        ih fun y hy => h y (List.mem_cons_of_mem x hy)]

/-- The first debug file that is there is read. -/
theorem run_readDebug (extensions : List String) :
    FileAction.run (readDebug stable extensions).run t =
      (.ok (extensions.findSome? fun extension =>
        t.content? (stable.append ("." ++ extension))), t) := by
  induction extensions with
  | nil => rfl
  | cons extension rest ih =>
      rw [readDebug, FileTask.run_bind, FileTask.run_observe, List.findSome?_cons]
      cases hcontent : t.content? (stable.append ("." ++ extension)) with
      | none =>
          have hnone : t.isFile (stable.append ("." ++ extension)) = false := by
            rw [FileTree.isFile_eq_isSome, hcontent, Option.isSome_none]
          simp only [hnone, Bool.false_eq_true, ↓reduceIte]
          exact ih
      | some found =>
          have hsome : t.isFile (stable.append ("." ++ extension)) = true := by
            rw [FileTree.isFile_eq_isSome, hcontent, Option.isSome_some]
          simp only [hsome, ↓reduceIte]
          rw [FileTask.run_bind, FileTask.run_inspect_ok (readBytes_of_content? hcontent)]
          exact FileTask.run_pure _ _

theorem run_read (hstable : s.stablePath address = .ok stable)
    (hbytes : t.content? stable = some bytes) :
    FileAction.run (s.read address).run t =
      (.ok ⟨bytes, s.debugExtensions.findSome? fun extension =>
        t.content? (stable.append ("." ++ extension))⟩, t) := by
  rw [read, FileTask.run_bind, FileTask.run_ofExcept, hstable]
  dsimp only
  rw [FileTask.run_bind, FileTask.run_inspect_ok (readBytes_of_content? hbytes)]
  dsimp only
  rw [FileTask.run_bind, run_readDebug]
  exact FileTask.run_pure _ _

end Reading

/-- What is to be read of a build that is staged: the artifact, and the first of its debug files that
have an extension added. -/
def stagedImage (s : ArtifactStore) (staged : Path) (bytes : ByteArray) (t : FileTree) :
    ArtifactImage :=
  ⟨bytes, s.debugExtensions.findSome? fun extension =>
    t.content? (staged.append ("." ++ extension))⟩

/-- The build that was staged in one tree is what is to be seen in another. -/
structure Visible (s : ArtifactStore) (b : Bench) (t now : FileTree) : Prop where
  home : now.Reaches b.home b.homeAt
  takes : FileTree.Takes b.home (b.address ++ s.artifactTail)
  artifact : now.node? (b.stableAt s.artifactTail) = t.node? (b.stagedAt s.artifactTail)
  symbols : ∀ tail ∈ s.variantTails, now.content? (b.stable tail) = t.content? (b.staged tail)

/-- The artifact and all debug files have been moved to where they are read. -/
structure Switched (s : ArtifactStore) (b : Bench) (t t' : FileTree) : Prop
    extends Visible s b t t' where
  stands : b.Stands t'
  noArtifact : t'.node? (b.stagedAt s.artifactTail) = none
  noSymbols : ∀ tail ∈ s.variantTails, t'.isFile (b.staged tail) = false
  others : ∀ l, l ≠ b.stagedAt s.artifactTail → l ≠ b.stableAt s.artifactTail → l ≠ b.asideAt →
    ¬b.Touched 0 s.variantTails l → t'.node? l = t.node? l

section

variable {s : ArtifactStore} {address label : String} {b : Bench} {t t' t₁ t₂ now : FileTree}
  {made swapped : List FileEvent} {swaps : List DebugSwap}

/-- What is elsewhere does not matter to what is seen. -/
theorem Visible.congr (h : Visible s b t now) (hs : s.WellNamed)
    (hhome : t'.Reaches b.home b.homeAt)
    (hnode : ∀ tail, t'.node? (b.stableAt tail) = now.node? (b.stableAt tail)) :
    Visible s b t t' := by
  refine ⟨hhome, h.takes, (hnode _).trans h.artifact, fun tail htail => ?_⟩
  rw [← h.symbols tail htail]
  exact h.home.content?_congr hhome (b.isPart_stable (noSlash_variantTail hs htail))
    (FileTree.contentAt?_congr (hnode tail))

namespace Layout

theorem stagedAt_ne_asideAt (h : s.Layout address label) (wd : Location) :
    (h.bench wd).stagedAt s.artifactTail ≠ (h.bench wd).asideAt := by
  rw [h.asideAt_eq]
  intro heq
  have hname : label ++ s.artifactTail = label ++ s.asideTail :=
    List.singleton_inj.mp (List.append_cancel_left heq)
  have hlength := congrArg String.length (label_append_inj hname)
  rw [asideTail, String.length_append] at hlength
  have hdisplaced : ".displaced".length = 10 := rfl
  omega

theorem stableAt_ne_asideAt (h : s.Layout address label) (wd : Location) (tail : String) :
    (h.bench wd).stableAt tail ≠ (h.bench wd).asideAt := by
  intro heq
  have hlength := congrArg List.length heq
  rw [Bench.stableAt, Bench.asideDepth, List.length_append] at hlength
  simp at hlength

/-- The artifact that is seen is the one that was staged. -/
theorem content?_stable (h : s.Layout address label) {wd : Location} {bytes : ByteArray}
    (hvisible : Visible s (h.bench wd) t now)
    (hbytes : t.contentAt? ((h.bench wd).stagedAt s.artifactTail) = some bytes) :
    now.content? (s.stableAs address) = some bytes := by
  refine (hvisible.home.content?_iff h.isName_stable.isPart).mpr ⟨hvisible.takes, ?_⟩
  exact (FileTree.contentAt?_congr hvisible.artifact).trans hbytes

/-- Readers of what is seen get the build that was staged. -/
theorem run_read (h : s.Layout address label) {wd : Location} {bytes : ByteArray}
    (hvisible : Visible s (h.bench wd) t now)
    (hbytes : t.contentAt? ((h.bench wd).stagedAt s.artifactTail) = some bytes) :
    FileAction.run (s.read address).run now =
      (.ok (s.stagedImage (s.stagedAs address label) bytes t), now) := by
  have hsymbols : ∀ extension ∈ s.debugExtensions,
      now.content? ((s.stableAs address).append ("." ++ extension)) =
        t.content? ((s.stagedAs address label).append ("." ++ extension)) := by
    intro extension hextension
    have hstable : (s.stableAs address).append ("." ++ extension) =
        (h.bench wd).stable (s.artifactTail ++ ("." ++ extension)) :=
      append_artifact h.toWellNamed h.address _ _
    have hstaged : (s.stagedAs address label).append ("." ++ extension) =
        (h.bench wd).staged (s.artifactTail ++ ("." ++ extension)) :=
      append_artifact h.toWellNamed h.label _ _
    rw [hstable, hstaged]
    refine hvisible.symbols _ (mem_variantTails.mpr ⟨extension, hextension, Or.inl ?_⟩)
    rw [String.append_assoc]
  rw [ArtifactStore.run_read (stablePath_eq h.address) (h.content?_stable hvisible hbytes)]
  rw [findSome?_congr hsymbols]
  rfl

/-- Swaps of debug files leave the staged artifact alone. -/
theorem isFile_staged (h : s.Layout address label) (hs : s.Distinct)
    (hdesk : t.Reaches (s.desk address) (h.bench t.workingDirectory).deskAt)
    (hfile : t.isFile (s.stagedAs address label) = true) {result : Except OsError Unit}
    (hmaking : FileAction.Making t (asidePath (s.stagedAs address label))
      (h.bench t.workingDirectory).asideAt made result t₁)
    (hstands : (h.bench t.workingDirectory).Stands t₁)
    (hdone : Swapped (h.bench t.workingDirectory) 0 s.variantTails t₁ t₂) :
    t₂.node? ((h.bench t.workingDirectory).stagedAt s.artifactTail) =
        t.node? ((h.bench t.workingDirectory).stagedAt s.artifactTail) ∧
      t₂.isFile ((h.bench t.workingDirectory).staged s.artifactTail) = true := by
  have hnode : t₂.node? ((h.bench t.workingDirectory).stagedAt s.artifactTail) =
      t.node? ((h.bench t.workingDirectory).stagedAt s.artifactTail) := by
    have hnot := artifactTail_notMem_variantTails hs
    rw [hdone.agrees.node _ (Bench.not_touched_stagedAt hnot 0),
      hmaking.node?_other (h.stagedAt_ne_asideAt _)]
  have hdesk₂ := (hstands.agreesOff hdone.agrees).desk
  exact ⟨hnode, (hdesk.isFile_congr hdesk₂ h.isName_staged.isPart
    (FileTree.contentAt?_congr hnode)).trans hfile⟩

/-- When the artifact has been moved after all swaps, the switch is complete. -/
theorem switched (h : s.Layout address label) (hs : s.Distinct)
    (hdesk : t.Reaches (s.desk address) (h.bench t.workingDirectory).deskAt)
    (hfile : t.isFile (s.stagedAs address label) = true)
    (hmade : History (FileAction.createDirectory (asidePath (s.stagedAs address label))) t made
      (.ok ()) t₁)
    (hswapped : History (swapDebugFiles (asidePath (s.stagedAs address label)) 0
      (s.debugPairs (s.stagedAs address label) (s.stableAs address))) t₁ swapped
        (swaps, .ok ()) t₂)
    (hrename : t₂.rename (s.stagedAs address label) (s.stableAs address) = .ok t') :
    Switched s (h.bench t.workingDirectory) t t' ∧
      Swapped (h.bench t.workingDirectory) 0 s.variantTails t₁ t₂ ∧
      t₂.Moved t' ((h.bench t.workingDirectory).stagedAt s.artifactTail)
        ((h.bench t.workingDirectory).stableAt s.artifactTail) := by
  obtain ⟨hstands₁, hmaking⟩ := h.prepared hdesk hmade
  rw [h.debugPairs_eq t.workingDirectory] at hswapped
  have hdone : Swapped (h.bench t.workingDirectory) 0 s.variantTails t₁ t₂ :=
    (swapping_of_history hswapped).swapped hstands₁ (nodup_variantTails hs) h.noSlash_of_mem
  have hstands₂ := hstands₁.agreesOff hdone.agrees
  have hnot := artifactTail_notMem_variantTails hs
  obtain ⟨hstaged, hfile₂⟩ := h.isFile_staged hs hdesk hfile hmaking hstands₁ hdone
  obtain ⟨htakes, hmoved⟩ := hstands₂.moved_over h.noSlash_artifactTail hfile₂ hrename
  have hstands' := hstands₂.moved hmoved
  have hne : ∀ tail ∈ s.variantTails, tail ≠ s.artifactTail :=
    fun tail htail heq => hnot (heq ▸ htail)
  refine ⟨⟨⟨hstands'.home, htakes, hmoved.node?_target.trans hstaged, fun tail htail => ?_⟩,
    hstands', hmoved.node?_source Bench.stableAt_ne_stagedAt.symm, fun tail htail => ?_,
    fun l hsource htarget haside hplace => ?_⟩, hdone, hmoved⟩
  · have hslash := h.noSlash_of_mem tail htail
    have hlast : t'.content? ((h.bench t.workingDirectory).stable tail) =
        t₂.content? ((h.bench t.workingDirectory).stable tail) :=
      hstands₂.home.content?_congr hstands'.home (h.isPart_stable htail)
        (FileTree.contentAt?_congr (hmoved.node?_other Bench.stableAt_ne_stagedAt
          fun heq => hne tail htail (Bench.stableAt_inj heq)))
    have hfirst : t₁.content? ((h.bench t.workingDirectory).staged tail) =
        t.content? ((h.bench t.workingDirectory).staged tail) :=
      hdesk.content?_congr hstands₁.desk (h.isPart_staged htail) (hmaking.contentAt? _)
    rw [hlast, hdone.content? hstands₁ htail hslash, hfirst]
  · have hslash := h.noSlash_of_mem tail htail
    rw [hstands₂.isFile_staged_congr hstands' hslash (hmoved.node?_other
      (fun heq => hne tail htail (Bench.stagedAt_inj heq)) Bench.stableAt_ne_stagedAt.symm)]
    exact hdone.isFile_staged hstands₁ htail hslash
  · rw [hmoved.node?_other hsource htarget, hdone.agrees.node l hplace, hmaking.node?_other haside]

end Layout

end

end ArtifactStore

end Automation
