import Automation.Proofs.Publishing.Progress

/-
What readers see of a commit.

A commit touches the stable artifact in one step, the last of its moves.  Whoever reads between two
steps, or after a crash, finds the artifact as it was or the whole build that was staged, with the
debug files of that build.
-/

namespace Automation

/-- What a path leads to is as it was in another tree. -/
structure FileTree.SameAt (p : Path) (t now : FileTree) : Prop where
  workingDirectory : now.workingDirectory = t.workingDirectory
  node : now.node? (p.destination t.workingDirectory) = t.node? (p.destination t.workingDirectory)

namespace FileTask

variable {α : Type}

theorem run_inspect_error {activity : Activity} {f : FileTree → Except OsError α} {t : FileTree}
    {e : OsError} (h : f t = .error e) :
    FileAction.run (inspect activity f).run t = (.error ⟨[activity], .os e⟩, t) := by
  rw [inspect, run_during, FileAction.run_observe, h]

end FileTask

namespace ArtifactStore

open FileAction

/-- The steps that move debug files: out of the way, into their place, and back. -/
inductive Bench.Handles (b : Bench) (tails : List String) : FileOp → Prop where
  | away (tail : String) (i : Nat) (hmem : tail ∈ tails) :
      Handles b tails (.rename (b.stable tail) (b.kept i))
  | into (tail : String) (hmem : tail ∈ tails) :
      Handles b tails (.rename (b.staged tail) (b.stable tail))
  | back (tail : String) (i : Nat) (hmem : tail ∈ tails) :
      Handles b tails (.rename (b.kept i) (b.stable tail))
  | remove (tail : String) (hmem : tail ∈ tails) : Handles b tails (.unlink (b.stable tail))

section Handling

variable {b : Bench} {tails : List String} {other : String} {t now now' : FileTree} {op : FileOp}

namespace Bench

theorem stableAt_eq_of_isPrefix {tail : String} (h : b.stableAt tail <+: b.stableAt other) :
    tail = other := by
  refine stableAt_inj (h.eq_of_length ?_)
  simp [stableAt]

theorem not_stagedAt_isPrefix (b : Bench) (tail : String) : ¬b.stagedAt tail <+: b.stableAt other :=
  fun h => b.not_deskAt_isPrefix other ((List.prefix_append _ _).trans h)

theorem not_keptAt_isPrefix (b : Bench) (i : Nat) : ¬b.keptAt i <+: b.stableAt other :=
  fun h => b.not_asideAt_isPrefix other ((List.prefix_append _ _).trans h)

/-- None of these steps touches a stable file of another name. -/
theorem Handles.spares (h : b.Handles tails op) (hstands : b.Stands t)
    (htails : ∀ tail ∈ tails, '/' ∉ tail.toList) (hother : other ∉ tails)
    (hwd : now.workingDirectory = t.workingDirectory) (happly : op.apply now = .ok now') :
    op.Spares now.workingDirectory (b.stableAt other) := by
  have hplace : ∀ {p : Path} {d l : Location} {name : String}, t.Reaches p d → IsPart name →
      now.locate (p.child name) = .ok l →
        (p.child name).destination now.workingDirectory = d ++ [name] := by
    intro p d l name hreaches hname hlocate
    rw [Path.destination_child hname, hwd,
      hreaches.destination]
  have hne : ∀ tail ∈ tails, ¬b.stableAt tail <+: b.stableAt other :=
    fun tail hmem hprefix => hother (stableAt_eq_of_isPrefix hprefix ▸ hmem)
  cases h with
  | away tail i hmem =>
      obtain ⟨_, _, hold, hnew, _⟩ := FileTree.rename_ok happly
      rw [FileOp.Spares, stable, kept, hplace hstands.home (b.isPart_stable (htails tail hmem)) hold,
        hplace hstands.aside (isPart_kept i) hnew]
      exact ⟨hne tail hmem, b.not_keptAt_isPrefix i⟩
  | into tail hmem =>
      obtain ⟨_, _, hold, hnew, _⟩ := FileTree.rename_ok happly
      rw [FileOp.Spares, staged, stable, hplace hstands.desk (b.isPart_staged (htails tail hmem)) hold,
        hplace hstands.home (b.isPart_stable (htails tail hmem)) hnew]
      exact ⟨b.not_stagedAt_isPrefix tail, hne tail hmem⟩
  | back tail i hmem =>
      obtain ⟨_, _, hold, hnew, _⟩ := FileTree.rename_ok happly
      rw [FileOp.Spares, kept, stable, hplace hstands.aside (isPart_kept i) hold,
        hplace hstands.home (b.isPart_stable (htails tail hmem)) hnew]
      exact ⟨b.not_keptAt_isPrefix i, hne tail hmem⟩
  | remove tail hmem =>
      obtain ⟨_, _, _, hlocate, _, _⟩ := FileTree.unlink_ok happly
      rw [FileOp.Spares, stable, hplace hstands.home (b.isPart_stable (htails tail hmem)) hlocate]
      exact fun heq => hne tail hmem (heq ▸ List.prefix_rfl)

/-- So it is the same all the way through what only takes such steps. -/
theorem Stands.history_stableAt {α : Type} {action : FileAction α} {events : List FileEvent}
    {value : α} (hstands : b.Stands t) (htails : ∀ tail ∈ tails, '/' ∉ tail.toList)
    (hother : other ∉ tails) (htries : action.Tries (b.Handles tails))
    (hstart : now.workingDirectory = t.workingDirectory ∧
      now.node? (b.stableAt other) = t.node? (b.stableAt other))
    (h : History action now events value now') :
    (∀ event ∈ events, event.after.workingDirectory = t.workingDirectory ∧
      event.after.node? (b.stableAt other) = t.node? (b.stableAt other)) ∧
    now'.workingDirectory = t.workingDirectory ∧
      now'.node? (b.stableAt other) = t.node? (b.stableAt other) := by
  refine h.keeps (P := fun now => now.workingDirectory = t.workingDirectory ∧
    now.node? (b.stableAt other) = t.node? (b.stableAt other)) htries ?_ hstart
  rintro op before after hop ⟨hwd, hnode⟩ happly
  obtain ⟨hwd', hspared⟩ := FileTree.spared_of_apply happly
  exact ⟨hwd'.trans hwd,
    (hspared _ (hop.spares hstands htails hother hwd happly)).trans hnode⟩

end Bench

theorem tries_setAside {kind : FileOp → Prop} {target kept : Path}
    (h : kind (.rename target kept)) : (setAside target kept).run.Tries kind := by
  refine FileTask.tries_bind ((tries_observe _).bind fun _ => tries_pure _) fun found => ?_
  split
  · exact FileTask.tries_bind (FileTask.tries_during (tries_perform h)) fun _ => tries_pure _
  · exact tries_pure _

/-- A series of swaps tries nothing but its moves. -/
theorem tries_swapDebugFiles {kind : FileOp → Prop} {aside : Path} {i : Nat}
    {pairs : List (Path × Path)}
    (haway : ∀ pair ∈ pairs, ∀ n : Nat, kind (.rename pair.2 (aside.child (toString n))))
    (hover : ∀ pair ∈ pairs, kind (.rename pair.1 pair.2)) :
    (swapDebugFiles aside i pairs).Tries kind := by
  induction pairs generalizing i with
  | nil => exact tries_pure _
  | cons pair rest ih =>
      obtain ⟨staged, target⟩ := pair
      obtain ⟨hfirst, haway⟩ := List.forall_mem_cons.mp haway
      obtain ⟨hmove, hover⟩ := List.forall_mem_cons.mp hover
      refine Tries.bind (tries_setAside (hfirst i)) fun result => ?_
      split
      · exact tries_pure _
      · refine (tries_observe _).bind fun found => ?_
        split
        · refine (tries_perform hmove).bind fun moved => ?_
          split
          · exact tries_pure _
          · exact (ih haway hover).bind fun _ => tries_pure _
        · exact (ih haway hover).bind fun _ => tries_pure _

end Handling

/-- What could be read was there. -/
theorem exists_bytes_of_read {s : ArtifactStore} {address : String} {stable : Path}
    {t now : FileTree} {image : ArtifactImage} (hstable : s.stablePath address = .ok stable)
    (h : FileAction.run (s.read address).run t = (.ok image, now)) :
    ∃ bytes, t.readBytes stable = .ok bytes := by
  rw [read, FileTask.run_bind, FileTask.run_ofExcept, hstable] at h
  dsimp only at h
  cases hread : t.readBytes stable with
  | ok bytes => exact ⟨bytes, rfl⟩
  | error e =>
      rw [FileTask.run_bind, FileTask.run_inspect_error hread] at h
      cases h

theorem exists_locate_of_readBytes {t : FileTree} {p : Path} {bytes : ByteArray}
    (h : t.readBytes p = .ok bytes) : ∃ l, t.locate p = .ok l := by
  cases hlocate : t.locate p with
  | ok l => exact ⟨l, rfl⟩
  | error e =>
      rw [FileTree.readBytes, FileTree.stat, hlocate] at h
      cases h

section Courses

variable {s : ArtifactStore} {address label : String} {t t' t₁ t₂ : FileTree}
  {made swapped events : List FileEvent} {result : Except Failure Unit}

namespace Layout

theorem destination_stable (h : s.Layout address label) (wd : Location) :
    (s.stableAs address).destination wd = (h.bench wd).stableAt s.artifactTail :=
  Path.destination_child h.isName_stable.isPart wd

theorem sameAt_iff (h : s.Layout address label) {now : FileTree} :
    FileTree.SameAt (s.stableAs address) t now ↔
      now.workingDirectory = t.workingDirectory ∧
        now.node? ((h.bench t.workingDirectory).stableAt s.artifactTail) =
          t.node? ((h.bench t.workingDirectory).stableAt s.artifactTail) := by
  rw [← h.destination_stable]
  exact ⟨fun hsame => ⟨hsame.workingDirectory, hsame.node⟩, fun ⟨hwd, hnode⟩ => ⟨hwd, hnode⟩⟩

theorem tries_swaps (h : s.Layout address label) (wd : Location) :
    (swapDebugFiles (asidePath (s.stagedAs address label)) 0
      (s.debugPairs (s.stagedAs address label) (s.stableAs address))).Tries
        ((h.bench wd).Handles s.variantTails) := by
  rw [h.debugPairs_eq wd]
  refine tries_swapDebugFiles (fun pair hpair n => ?_) fun pair hpair => ?_
  · obtain ⟨tail, hmem, rfl⟩ := List.mem_map.mp hpair
    exact .away tail n hmem
  · obtain ⟨tail, hmem, rfl⟩ := List.mem_map.mp hpair
    exact .into tail hmem

theorem tries_restore (h : s.Layout address label) {wd : Location} {swaps : List DebugSwap}
    {outcome : Except Failure Unit}
    (hswapped : History (swapDebugFiles (asidePath (s.stagedAs address label)) 0
      (s.debugPairs (s.stagedAs address label) (s.stableAs address))) t₁ swapped
        (swaps, outcome) t₂) :
    (restoreDebugFiles swaps).Tries ((h.bench wd).Handles s.variantTails) := by
  rw [h.debugPairs_eq wd] at hswapped
  have hmem := (swapping_of_history hswapped).of_mem
  refine tries_restoreDebugFiles (fun swap hswap => ?_) fun swap hswap p hp => ?_
  · obtain ⟨⟨pair, hpair, htarget⟩, _⟩ := hmem swap hswap
    obtain ⟨tail, htail, rfl⟩ := List.mem_map.mp hpair
    rw [htarget]
    exact .remove tail htail
  · obtain ⟨⟨pair, hpair, htarget⟩, hkept⟩ := hmem swap hswap
    obtain ⟨tail, htail, rfl⟩ := List.mem_map.mp hpair
    obtain ⟨n, rfl⟩ := hkept p hp
    rw [htarget]
    exact .back tail n htail

/-- To clear away what was set aside changes nothing but what is there. -/
theorem cleared (h : s.Layout address label) {removal : Except OsError Unit}
    {now now' : FileTree} (hwd : now.workingDirectory = t.workingDirectory)
    (hclosing : History (perform (.removeTree (asidePath (s.stagedAs address label)))) now events
      removal now') :
    now'.workingDirectory = t.workingDirectory ∧
      ∀ l, ¬(h.bench t.workingDirectory).asideAt <+: l → now'.node? l = now.node? l := by
  have haside : (h.bench t.workingDirectory).aside.destination now.workingDirectory =
      (h.bench t.workingDirectory).asideAt := by
    rw [hwd]
    exact h.destination_aside _
  obtain ⟨hwd', hkept, _⟩ := cleared_of_history haside hclosing
  exact ⟨hwd'.trans hwd, hkept⟩

variable (h : s.Layout address label) (hs : s.Distinct)
  (hdesk : t.Reaches (s.desk address) (h.bench t.workingDirectory).deskAt)

include hdesk

/-- Nothing is to be seen of the preparations. -/
theorem sameAt_of_made {outcome : Except OsError Unit}
    (hmade : History (FileAction.createDirectory (asidePath (s.stagedAs address label))) t made
      outcome t₁) :
    (∀ event ∈ made, FileTree.SameAt (s.stableAs address) t event.after) ∧
      FileTree.SameAt (s.stableAs address) t t₁ := by
  have hne : (h.bench t.workingDirectory).stableAt s.artifactTail ≠
      (h.bench t.workingDirectory).deskAt ++ [label ++ s.asideTail] :=
    h.asideAt_eq _ ▸ h.stableAt_ne_asideAt _ _
  rw [h.aside_eq] at hmade
  have hmaking := making_createDirectory hdesk h.isName_aside hmade
  have hend := h.sameAt_iff.mpr ⟨hmaking.workingDirectory, hmaking.node?_other hne⟩
  refine ⟨fun event hevent => ?_, hend⟩
  rcases hmaking.seen event hevent with heq | heq
  · rw [heq]
    exact ⟨rfl, rfl⟩
  · rw [heq]
    exact hend

include hs

/-- Nothing is to be seen of moves of debug files either. -/
theorem sameAt_of_moves {α : Type} {action : FileAction α} {value : α} {now now' : FileTree}
    (hmade : History (FileAction.createDirectory (asidePath (s.stagedAs address label))) t made
      (.ok ()) t₁)
    (htries : action.Tries ((h.bench t.workingDirectory).Handles s.variantTails))
    (hstart : FileTree.SameAt (s.stableAs address) t now)
    (hmoves : History action now events value now') :
    (∀ event ∈ events, FileTree.SameAt (s.stableAs address) t event.after) ∧
      FileTree.SameAt (s.stableAs address) t now' := by
  have hstands := (h.prepared hdesk hmade).1
  have hfirst := h.sameAt_iff.mp (h.sameAt_of_made hdesk hmade).2
  have hnow := h.sameAt_iff.mp hstart
  obtain ⟨hevents, hend⟩ := hstands.history_stableAt h.noSlash_of_mem
    (artifactTail_notMem_variantTails hs) htries
    ⟨hnow.1.trans hfirst.1.symm, hnow.2.trans hfirst.2.symm⟩ hmoves
  refine ⟨fun event hevent => h.sameAt_iff.mpr ?_, h.sameAt_iff.mpr ?_⟩
  · exact ⟨(hevents event hevent).1.trans hfirst.1, (hevents event hevent).2.trans hfirst.2⟩
  · exact ⟨hend.1.trans hfirst.1, hend.2.trans hfirst.2⟩

/-- A commit that fails never touched the artifact. -/
theorem sameAt_of_error {f : Failure}
    (hcourse : CommitCourse s (s.stagedAs address label) (s.stableAs address) t events
      (.error f) t') : ∀ event ∈ events, FileTree.SameAt (s.stableAs address) t event.after := by
  cases hcourse with
  | missing f hnone => simp
  | unprepared f hfile hmade => exact (h.sameAt_of_made hdesk hmade).1
  | @undone made swapped tried restored closing t₁ t₂ t₃ _ swaps outcome removal _ hfile hmade
      hswapped htried hrestored hclosing =>
      obtain ⟨hmadeSame, hfirst⟩ := h.sameAt_of_made hdesk hmade
      obtain ⟨hswappedSame, hsecond⟩ :=
        h.sameAt_of_moves hs hdesk hmade (h.tries_swaps _) hfirst hswapped
      obtain ⟨hrestoredSame, hthird⟩ :=
        h.sameAt_of_moves hs hdesk hmade (h.tries_restore hswapped) hsecond hrestored
      have hclosed : FileTree.SameAt (s.stableAs address) t t' := by
        obtain ⟨hwd, hkept⟩ := h.cleared hthird.workingDirectory hclosing
        exact h.sameAt_iff.mpr ⟨hwd, (hkept _ (Bench.not_asideAt_isPrefix _ _)).trans
          (h.sameAt_iff.mp hthird).2⟩
      intro event hevent
      simp only [List.mem_append] at hevent
      rcases hevent with hevent | hevent | hevent | hevent | hevent
      · exact hmadeSame event hevent
      · exact hswappedSame event hevent
      · exact htried event hevent ▸ hsecond
      · exact hrestoredSame event hevent
      · exact after_of_history_perform hclosing event hevent ▸ hclosed

/-- What is to be seen after the artifact has been moved, as long as the programs directory can be
reached, and it can unless its way has been cleared away. -/
structure Seen (h : s.Layout address label) (t now : FileTree) : Prop where
  workingDirectory : now.workingDirectory = t.workingDirectory
  artifact : now.node? ((h.bench t.workingDirectory).stableAt s.artifactTail) =
    t.node? ((h.bench t.workingDirectory).stagedAt s.artifactTail)
  visible : now.Reaches s.programsDir (s.programsDir.destination t.workingDirectory) →
    Visible s (h.bench t.workingDirectory) t now
  reaches : s.programsDir.Avoids t.workingDirectory (h.bench t.workingDirectory).asideAt →
    now.Reaches s.programsDir (s.programsDir.destination t.workingDirectory)

/-- A commit that succeeds shows the new build from its last move on. -/
theorem exists_switch
    (hcourse : CommitCourse s (s.stagedAs address label) (s.stableAs address) t events
      (.ok ()) t') :
    ∃ before switch rest, events = before ++ switch :: rest ∧
      (∀ event ∈ before, FileTree.SameAt (s.stableAs address) t event.after) ∧
      switch.op = .rename (s.stagedAs address label) (s.stableAs address) ∧
      (∀ event ∈ rest, event.op = .removeTree (asidePath (s.stagedAs address label))) ∧
      ∀ event ∈ switch :: rest, h.Seen t event.after := by
  cases hcourse with
  | @published made swapped closing t₁ t₂ t₃ _ swaps removal hfile hmade hswapped hrename hclosing =>
      obtain ⟨hmadeSame, hfirst⟩ := h.sameAt_of_made hdesk hmade
      obtain ⟨hswappedSame, hsecond⟩ :=
        h.sameAt_of_moves hs hdesk hmade (h.tries_swaps _) hfirst hswapped
      obtain ⟨hswitched, _, hmoved⟩ := h.switched hs hdesk hfile hmade hswapped hrename
      have hwd := hmoved.workingDirectory.trans hsecond.workingDirectory
      refine ⟨made ++ swapped, _, closing, by rw [List.append_assoc], fun event hevent => ?_, rfl,
        fun event hevent => (hclosing.kind_of_mem (tries_perform rfl) event hevent).symm,
        List.forall_mem_cons.mpr ⟨?_, fun event hevent => ?_⟩⟩
      · rcases List.mem_append.mp hevent with hevent | hevent
        · exact hmadeSame event hevent
        · exact hswappedSame event hevent
      · exact ⟨hwd, hswitched.artifact, fun _ => hswitched.toVisible, fun _ => hswitched.home⟩
      · rw [after_of_history_perform hclosing event hevent]
        obtain ⟨hwd', hkept⟩ := h.cleared hwd hclosing
        have hstable := fun tail => hkept _ (Bench.not_asideAt_isPrefix _ tail)
        refine ⟨hwd', (hstable _).trans hswitched.artifact, fun hreaches => ?_, fun havoids => ?_⟩
        · exact hswitched.congr hs.toWellNamed hreaches hstable
        · exact hswitched.home.of_cleared (hwd'.trans hwd.symm) (hwd ▸ havoids) hkept

end Layout

end Courses

/-- A lamp was compiled for the store whose artifacts are called as debug files, and there is an older
one. -/
def replacedDotted : FileTree :=
  { compiledDotted with
    entries := compiledDotted.entries ++ [(["p", "lamp.unit.mdb"], .file "old".toUTF8 false)] }

end ArtifactStore

end Automation
