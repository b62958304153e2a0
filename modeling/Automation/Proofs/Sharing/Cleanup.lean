import Automation.Proofs.Files.Soundness
import Automation.Proofs.Files.Ways
import Automation.Proofs.Publishing.Course
import Automation.Proofs.Sharing.Starting
import Automation.Proofs.Sharing.Sweeping

/-
What a start cleans up.

A start makes missing directories on two ways, sweeps the shadow root and makes a directory of its own, which
goes away again when the template cannot be read.  So among what was in the shadow root before, only directories
of processes that are gone go away, and a start that fails leaves no directory of its own behind.
-/

namespace Automation

open FileTree FileAction

namespace Environment

variable {config : EngineConfig} {processes : ProcessTable} {n : Nat} {t now next t' : FileTree}
  {events : List FileEvent} {removed : List String} {name owner : String}
  {result : Except Failure (Environment × Registry × Nat)}

/-- The way on which a start makes the directories that are missing. -/
def OnWay (config : EngineConfig) (wd l : Location) : Prop :=
  (config.programsDir.child ArtifactStore.stagingName).Crosses wd l ∨
    (config.shadowDir.child claimsName).Crosses wd l

/-- The shadow root of a configuration, as seen from a working directory. -/
def shadowRoot (config : EngineConfig) (t : FileTree) : Location :=
  config.shadowDir.destination t.workingDirectory

/-- A directory in the shadow root that belongs to a process that is gone. -/
def IsStale (config : EngineConfig) (processes : ProcessTable) (t : FileTree) (name : String) : Prop :=
  IsOfGone processes name ∧ t.node? (shadowRoot config t ++ [name]) = some .directory

/-- A directory was made on the way, where nothing was. -/
def MadeOnWay (config : EngineConfig) (t now : FileTree) (l : Location) : Prop :=
  t.node? l = none ∧ now.node? l = some .directory ∧ OnWay config t.workingDirectory l

section Cleared

/-- Between two trees, directories of processes that are gone went away from the shadow root, and elsewhere
there are new directories on the way and nothing else is new. -/
structure Cleared (config : EngineConfig) (processes : ProcessTable) (t : FileTree) (removed : List String)
    (now : FileTree) : Prop where
  workingDirectory : now.workingDirectory = t.workingDirectory
  gone : ∀ name ∈ removed, IsOfGone processes name ∧
    (t.node? (shadowRoot config t ++ [name]) = some .directory ∨
      t.node? (shadowRoot config t ++ [name]) = none)
  below : ∀ l, Under (shadowRoot config t) removed l → now.node? l = none
  node : ∀ l, ¬Under (shadowRoot config t) removed l →
    now.node? l = t.node? l ∨ MadeOnWay config t now l

theorem Cleared.refl (config : EngineConfig) (processes : ProcessTable) (t : FileTree) :
    Cleared config processes t [] t := by
  constructor
  · rfl
  · simp
  · simp [Under]
  · simp

/-- To make the directories of a way comes before all removals. -/
theorem Cleared.pave {p : Path} (h : Cleared config processes t [] now)
    (hp : ∀ l, p.Crosses t.workingDirectory l → OnWay config t.workingDirectory l)
    (hpaved : p.Paved now next) : Cleared config processes t [] next := by
  refine ⟨hpaved.workingDirectory.trans h.workingDirectory, by simp, by simp [Under], fun l hl => ?_⟩
  have hsecond := hpaved.node l
  rw [h.workingDirectory] at hsecond
  rcases h.node l hl with hkept | ⟨hfree, hmade, hway⟩
  · rw [hkept] at hsecond
    rcases hsecond with hkept' | ⟨hfree, hmade, hcrosses⟩
    · exact Or.inl hkept'
    · exact Or.inr ⟨hfree, hmade, hp l hcrosses⟩
  · rcases hsecond with hkept | ⟨hfree', -, -⟩
    · exact Or.inr ⟨hfree, hkept.trans hmade, hway⟩
    · cases hfree'.symm.trans hmade

theorem Cleared.directory {l : Location} (h : Cleared config processes t [] now)
    (hl : t.node? l = some .directory) : now.node? l = some .directory := by
  rcases h.node l (by simp [Under]) with hkept | ⟨hfree, -, -⟩
  · exact hkept.trans hl
  · cases hfree.symm.trans hl

/-- A sweep comes after the making of directories. -/
theorem Cleared.sweep (h : Cleared config processes t [] now)
    (hswept : Swept processes (shadowRoot config t) now removed next) :
    Cleared config processes t removed next := by
  refine ⟨hswept.workingDirectory.trans h.workingDirectory, fun name hname => ?_, hswept.below,
    fun l hl => ?_⟩
  · obtain ⟨hgone, hdirectory⟩ := hswept.gone name hname
    refine ⟨hgone, ?_⟩
    rcases h.node (shadowRoot config t ++ [name]) (by simp [Under]) with hkept | ⟨hfree, -, -⟩
    · exact Or.inl (hkept.symm.trans hdirectory)
    · exact Or.inr hfree
  · rw [MadeOnWay, hswept.kept l hl]
    exact h.node l (by simp [Under])

end Cleared

section Steps

/-- A snapshot directory has the name of an owner and is made where nothing was, or nothing is made. -/
theorem history_makeSnapshotDirectory {shadowDir : Path} {made : Except Failure (Path × Nat)}
    (h : History (makeSnapshotDirectory processes shadowDir n).run t events made t') :
    (∃ f, made = .error f ∧ t' = t) ∨
      ∃ owner used, IsOwnerOf processes.self owner ∧
        made = .ok ((t.absolute shadowDir).child owner, used) ∧
        t.makeDirectory ((t.absolute shadowDir).child owner) = .ok t' := by
  rw [makeSnapshotDirectory, FileTask.observe, FileTask.history_lift_bind_iff] at h
  obtain ⟨first, found, t₁, second, rfl, hfound, h⟩ := h
  obtain ⟨rfl, rfl, rfl⟩ := history_observe_iff.mp hfound
  obtain ⟨m, hm, -⟩ := exists_firstFree_eq (snapshotPath processes (t₁.absolute shadowDir)) t₁
    (t₁.entries.length + 1) n
  rw [hm] at h
  obtain ⟨third, outcome, t₂, fourth, rfl, hmade, h⟩ := FileTask.history_lift_bind_iff.mp h
  rcases history_perform_iff.mp hmade with ⟨happly, rfl, -⟩ | ⟨e, rfl, rfl, -⟩
  · obtain ⟨-, rfl, rfl⟩ := history_pure_iff.mp h
    exact Or.inr ⟨_, m + 1, ⟨m, rfl⟩, rfl, happly⟩
  · obtain ⟨-, rfl, rfl⟩ := history_pure_iff.mp h
    exact Or.inl ⟨_, rfl, rfl⟩

/-- Reading the template takes no steps. -/
theorem tries_readTemplate : (readTemplate config).run.Tries fun _ => False := by
  rw [readTemplate]
  split
  · exact tries_pure _
  · refine FileTask.tries_bind (FileTask.tries_during (tries_observe _)) fun text => ?_
    split
    · exact tries_pure _
    · exact tries_pure _

theorem history_readTemplate {read : Except Failure Template}
    (h : History (readTemplate config).run t events read t') : events = [] ∧ t' = t := by
  refine ⟨List.eq_nil_iff_forall_not_mem.mpr (h.kind_of_mem tries_readTemplate), ?_⟩
  exact (h.keeps (P := (· = t)) tries_readTemplate (fun _ _ _ hno => hno.elim) rfl).2

end Steps

section Course

/-- All directories of processes that are gone are among these names, if the shadow root can be listed and no
removal is refused. -/
def IsComplete (config : EngineConfig) (processes : ProcessTable) (t : FileTree) (removed : List String)
    (events : List FileEvent) : Prop :=
  RemovalsSucceed events → config.shadowDir.text ≠ "" →
    ∀ name, IsStale config processes t name → name ∈ removed

/-- The ways a start can go. -/
inductive StartCourse (config : EngineConfig) (processes : ProcessTable) (t : FileTree) :
    List FileEvent → Except Failure (Environment × Registry × Nat) → FileTree → Prop where
  /-- The configuration is refused. -/
  | refused (e : ConfigError) (hinvalid : config.validate = .error e) :
      StartCourse config processes t [] (.error (.ofCause (.config e))) t
  /-- A directory on the way could not be made. -/
  | unprepared {events : List FileEvent} {t' : FileTree} (f : Failure) (hvalid : config.validate = .ok ())
      (hduring : f.during = [.createDirectory (config.programsDir.child ArtifactStore.stagingName)] ∨
        f.during = [.createShadowDirectory (config.shadowDir.child claimsName)])
      (hcleared : Cleared config processes t [] t') :
      StartCourse config processes t events (.error f) t'
  /-- No directory of its own could be made. -/
  | homeless {events : List FileEvent} {removed : List String} {t' : FileTree} (f : Failure)
      (hvalid : config.validate = .ok ()) (hcleared : Cleared config processes t removed t')
      (hall : IsComplete config processes t removed events) :
      StartCourse config processes t events (.error f) t'
  /-- The template could not be read, and the directory that was made is to go away again. -/
  | undone {events closing : List FileEvent} {removed : List String} {owner : String}
      {now next t' : FileTree} {removal : Except OsError Unit} (f : Failure)
      (hvalid : config.validate = .ok ()) (hcleared : Cleared config processes t removed now)
      (hall : IsComplete config processes t removed events) (hsound : now.Sound)
      (howner : IsOwnerOf processes.self owner)
      (hmake : now.makeDirectory ((now.absolute config.shadowDir).child owner) = .ok next)
      (hclosing : History (perform (.removeTree ((now.absolute config.shadowDir).child owner))) next closing
        removal t') (hpart : closing ⊆ events) :
      StartCourse config processes t events (.error f) t'
  /-- The environment is there. -/
  | started {events : List FileEvent} {removed : List String} {owner : String} {now t' : FileTree}
      (environment : Environment) (registry : Registry) (used : Nat) (hvalid : config.validate = .ok ())
      (hcleared : Cleared config processes t removed now)
      (hall : IsComplete config processes t removed events) (hsound : now.Sound)
      (howner : IsOwnerOf processes.self owner)
      (hmake : now.makeDirectory ((now.absolute config.shadowDir).child owner) = .ok t')
      (hsnapshot : environment.snapshotDir = (now.absolute config.shadowDir).child owner) :
      StartCourse config processes t events (.ok (environment, registry, used)) t'

/-- Removals that all succeed do so in every part. -/
theorem RemovalsSucceed.of_subset {part all : List FileEvent} (h : RemovalsSucceed all)
    (hsubset : part ⊆ all) : RemovalsSucceed part := fun event hevent => h event (hsubset hevent)

/-- What is swept when the directories are made. -/
theorem cleared_of_sweep {sweeping : List FileEvent}
    (hcleared : Cleared config processes t [] now) (hsound : now.Sound)
    (hthere : now.isDirectory (config.shadowDir.child claimsName) = true)
    (h : History (removeDeadSnapshots processes config.shadowDir) now sweeping () next) :
    ∃ removed, Cleared config processes t removed next ∧ next.Sound ∧
      ∀ events, sweeping ⊆ events → IsComplete config processes t removed events := by
  obtain ⟨removed, hswept, hall⟩ := swept_of_history hsound h
  have hroot : config.shadowDir.destination now.workingDirectory = shadowRoot config t := by
    rw [hcleared.workingDirectory, shadowRoot]
  obtain ⟨hreaches, hfits, -⟩ := (isDirectory_child_iff isName_claimsName).mp hthere
  rw [hroot] at hswept hall hreaches
  refine ⟨removed, hcleared.sweep hswept, hswept.sound hsound, ?_⟩
  rintro events hpart hsucceed hne name ⟨hgone, hdirectory⟩
  exact hall (hsucceed.of_subset hpart) (list_of_reaches hreaches hne isName_claimsName hfits) name hgone
    (hcleared.directory hdirectory)

/-- How a start goes on when the directories are made. -/
theorem course_of_sweep {before : List FileEvent} (hvalid : config.validate = .ok ())
    (hcleared : Cleared config processes t [] now) (hsound : now.Sound)
    (hthere : now.isDirectory (config.shadowDir.child claimsName) = true)
    (h : History (do
      ExceptT.lift (removeDeadSnapshots processes config.shadowDir)
      let (snapshotDir, next) ← makeSnapshotDirectory processes config.shadowDir n
      let owner := snapshotDir.fileName?.getD ""
      let registry := Registry.withClaims ⟨config.shadowDir.child claimsName, config.shadowDir, owner⟩
      match ← ExceptT.lift (readTemplate config).run with
      | .ok template => pure (⟨config, .ofConfig config, template, snapshotDir⟩, registry, next)
      | .error f => do
          let _ ← ExceptT.lift (FileAction.perform (.removeTree snapshotDir))
          throw f : FileTask (Environment × Registry × Nat)).run now events result t') :
    StartCourse config processes t (before ++ events) result t' := by
  obtain ⟨sweeping, _, t₁, after, rfl, hsweep, h⟩ := FileTask.history_lift_bind_iff.mp h
  obtain ⟨removed, hswept, hsound, hall⟩ := cleared_of_sweep hcleared hsound hthere hsweep
  rcases FileTask.history_bind_iff.mp h with ⟨f, rfl, hmake⟩ | ⟨making, made, t₂, after, rfl, hmake, h⟩
  · rcases history_makeSnapshotDirectory hmake with ⟨_, -, rfl⟩ | ⟨_, _, -, hok, -⟩
    · exact .homeless f hvalid hswept (hall _ (by simp))
    · cases hok
  rcases history_makeSnapshotDirectory hmake with ⟨_, herror, -⟩ | ⟨owner, used, howner, hok, hmade⟩
  · cases herror
  obtain rfl := Except.ok.inj hok
  obtain ⟨reading, read, t₃, after, rfl, hread, h⟩ := FileTask.history_lift_bind_iff.mp h
  obtain ⟨rfl, rfl⟩ := history_readTemplate hread
  cases read with
  | ok template =>
      obtain ⟨rfl, rfl, rfl⟩ := history_pure_iff.mp h
      exact .started _ _ _ hvalid hswept (hall _ (by simp)) hsound howner hmade rfl
  | error f =>
      obtain ⟨closing, removal, t₄, last, rfl, hremove, h⟩ := FileTask.history_lift_bind_iff.mp h
      obtain ⟨rfl, rfl, rfl⟩ := history_pure_iff.mp h
      exact .undone f hvalid hswept (hall _ (by simp)) hsound howner hmade hremove
        fun event hevent => by simp [hevent]

/-- Every history of a start is one of these courses. -/
theorem course_of_history (ht : t.Sound) (h : History (start config processes n).run t events result t') :
    StartCourse config processes t events result t' := by
  rw [start] at h
  cases hvalid : config.validate with
  | error e =>
      simp only [hvalid] at h
      rcases FileTask.history_bind_iff.mp h with ⟨f, rfl, hthrow⟩ | ⟨_, _, _, _, -, hthrow, -⟩
      · obtain ⟨rfl, herror, rfl⟩ := history_pure_iff.mp hthrow
        cases herror
        exact .refused e hvalid
      · obtain ⟨-, hok, -⟩ := history_pure_iff.mp hthrow
        cases hok
  | ok _ =>
      simp only [hvalid] at h
      rcases FileTask.history_during_bind_iff.mp h with ⟨e, rfl, hmade⟩ | ⟨first, _, t₁, rest, rfl, hmade, h⟩
      · exact .unprepared _ hvalid (Or.inl rfl)
          ((Cleared.refl config processes t).pave (fun _ => Or.inl) (paved_of_history hmade).1)
      have hstored := (Cleared.refl config processes t).pave (fun _ => Or.inl) (paved_of_history hmade).1
      have hsound := sound_of_history ht hmade
      rcases FileTask.history_during_bind_iff.mp h with ⟨e, rfl, hmade⟩ | ⟨second, _, t₂, rest, rfl, hmade, h⟩
      · exact .unprepared _ hvalid (Or.inr rfl) (hstored.pave (fun _ => Or.inr) (paved_of_history hmade).1)
      · rw [← List.append_assoc]
        exact course_of_sweep hvalid (hstored.pave (fun _ => Or.inr) (paved_of_history hmade).1)
          (sound_of_history hsound hmade) (isDirectory_of_history isName_claimsName hmade) h

end Course

section Outcome

/-- The directories on the way were made, or something else failed before. -/
def DirectoriesMade (config : EngineConfig) (result : Except Failure (Environment × Registry × Nat)) : Prop :=
  ∀ f, result = .error f →
    f.during ≠ [.createDirectory (config.programsDir.child ArtifactStore.stagingName)] ∧
      f.during ≠ [.createShadowDirectory (config.shadowDir.child claimsName)]

/-- The directory that a start makes for itself was not there, and it is a directory in the shadow root. -/
theorem snapshot_of_make (hcleared : Cleared config processes t removed now) (hsound : now.Sound)
    (howner : IsOwnerOf processes.self owner)
    (hmake : now.makeDirectory ((now.absolute config.shadowDir).child owner) = .ok next) :
    ((now.absolute config.shadowDir).child owner).destination t.workingDirectory =
        shadowRoot config t ++ [owner] ∧
      t.node? (shadowRoot config t ++ [owner]) = none ∧
      next.isDirectory ((now.absolute config.shadowDir).child owner) = true ∧
      next = now.put (shadowRoot config t ++ [owner]) .directory := by
  have hdestination : ((now.absolute config.shadowDir).child owner).destination t.workingDirectory =
      shadowRoot config t ++ [owner] := by
    rw [Path.destination_child howner.isName.isPart, Path.destination_absolute hsound.place,
      hcleared.workingDirectory, shadowRoot]
  obtain ⟨hfree, hnext⟩ := makeDirectory_ok hmake
  rw [hcleared.workingDirectory, hdestination] at hfree hnext
  refine ⟨hdestination, ?_, isDirectory_of_makeDirectory howner.isName hmake, hnext⟩
  -- What a sweep removes is of processes that are gone, and its own process is there.
  have hkept : ¬Under (shadowRoot config t) removed (shadowRoot config t ++ [owner]) := fun hunder =>
    howner.not_isOfGone (hcleared.gone owner (under_below.mp hunder)).1
  rcases hcleared.node _ hkept with hsame | ⟨hnone, -, -⟩
  · exact hsame.symm.trans hfree
  · exact hnone

/-- Whatever becomes of a start, the files are cleared except for a new directory of its own. -/
theorem StartCourse.exists_cleared (h : StartCourse config processes t events result t') :
    ∃ removed now, Cleared config processes t removed now ∧
      (∀ l, (∀ owner, IsOwnerOf processes.self owner → t.node? (shadowRoot config t ++ [owner]) = none →
        ¬shadowRoot config t ++ [owner] <+: l) → t'.node? l = now.node? l) ∧
      (config.validate = .ok () → DirectoriesMade config result →
        IsComplete config processes t removed events) := by
  cases h with
  | refused e hinvalid =>
      refine ⟨[], t, .refl config processes t, fun _ _ => rfl, fun hvalid => ?_⟩
      cases hvalid.symm.trans hinvalid
  | unprepared f _ hduring hcleared =>
      refine ⟨[], t', hcleared, fun _ _ => rfl, fun _ hmade => ?_⟩
      rcases hduring with hstore | hclaims
      · exact absurd hstore (hmade f rfl).1
      · exact absurd hclaims (hmade f rfl).2
  | homeless f _ hcleared hall => exact ⟨_, t', hcleared, fun _ _ => rfl, fun _ _ => hall⟩
  | @undone _ _ removed owner now next _ _ f _ hcleared hall hsound howner hmake hclosing hpart =>
      obtain ⟨hdestination, hfree, -, rfl⟩ := snapshot_of_make hcleared hsound howner hmake
      refine ⟨removed, now, hcleared, fun l hl => ?_, fun _ _ => hall⟩
      have hne : shadowRoot config t ++ [owner] ≠ [] := by simp
      have hout := hl owner howner hfree
      have hput : (now.put (shadowRoot config t ++ [owner]) .directory).node? l = now.node? l := by
        rw [node?_put_of_ne hne, if_neg]
        rintro rfl
        exact hout List.prefix_rfl
      rcases history_perform_iff.mp hclosing with ⟨happly, -, -⟩ | ⟨e, -, rfl, -⟩
      · obtain rfl := removeTree_ok happly
        have hwd : (now.put (shadowRoot config t ++ [owner]) .directory).workingDirectory =
            t.workingDirectory := hcleared.workingDirectory
        rw [hwd, hdestination, node?_eraseBelow_of_ne hne, if_neg hout, hput]
      · exact hput
  | @started _ removed owner now _ environment registry used _ hcleared hall hsound howner hmake _ =>
      obtain ⟨-, hfree, -, rfl⟩ := snapshot_of_make hcleared hsound howner hmake
      refine ⟨removed, now, hcleared, fun l hl => ?_, fun _ _ => hall⟩
      rw [node?_put_of_ne (by simp), if_neg]
      rintro rfl
      exact hl owner howner hfree List.prefix_rfl

/-- What a start makes of the files, as seen from the shadow root.

Directories of processes that are gone go away, and all of them do when no removal is refused.  What else was
there stays as it is, up to directories that are made on the way.  A start that succeeds has a new directory of
its own, one that fails leaves none behind, and one that is refused changes nothing at all. -/
structure CleansUp (config : EngineConfig) (processes : ProcessTable) (t : FileTree) (events : List FileEvent)
    (result : Except Failure (Environment × Registry × Nat)) (t' : FileTree) : Prop where
  refused : ∀ e, config.validate = .error e →
    result = .error (.ofCause (.config e)) ∧ events = [] ∧ t' = t
  removed : config.validate = .ok () → DirectoriesMade config result → RemovalsSucceed events →
    config.shadowDir.text ≠ "" → ∀ name, IsStale config processes t name →
      ∀ rest, t'.node? (shadowRoot config t ++ name :: rest) = none
  spared : ∀ name, t.node? (shadowRoot config t ++ [name]) ≠ none → ¬IsStale config processes t name →
    ∀ rest, t'.node? (shadowRoot config t ++ name :: rest) = t.node? (shadowRoot config t ++ name :: rest) ∨
      MadeOnWay config t t' (shadowRoot config t ++ name :: rest)
  /-- Without double dots the way leads through an entry only when the programs directory is in it. -/
  untouched : ".." ∉ config.programsDir.names → ".." ∉ config.shadowDir.names →
    ∀ name, t.node? (shadowRoot config t ++ [name]) ≠ none → ¬IsStale config processes t name →
      ¬shadowRoot config t ++ [name] <+: config.programsDir.destination t.workingDirectory →
        ∀ rest, t'.node? (shadowRoot config t ++ name :: rest) = t.node? (shadowRoot config t ++ name :: rest)
  started : ∀ environment registry used, result = .ok (environment, registry, used) →
    ∃ owner, IsOwnerOf processes.self owner ∧ environment.snapshotDir.fileName? = some owner ∧
      environment.snapshotDir.destination t.workingDirectory = shadowRoot config t ++ [owner] ∧
        t.node? (shadowRoot config t ++ [owner]) = none ∧ t'.isDirectory environment.snapshotDir = true
  failed : ∀ f, result = .error f → (RemovalsSucceed events ∨ ∀ event ∈ events, event.IsNatural) →
    ∀ name, t.node? (shadowRoot config t ++ [name]) = none →
      t'.node? (shadowRoot config t ++ [name]) = none ∨
        MadeOnWay config t t' (shadowRoot config t ++ [name])

/-- A way without double dots leads below a name in the root only if the programs directory is there. -/
theorem not_onWay_of_noUp {rest : List String} (hprograms : ".." ∉ config.programsDir.names)
    (hshadow : ".." ∉ config.shadowDir.names)
    (hout : ¬shadowRoot config t ++ [name] <+: config.programsDir.destination t.workingDirectory)
    (hrest : rest ≠ []) : ¬OnWay config t.workingDirectory (shadowRoot config t ++ name :: rest) := by
  have hlong : ∀ l other, shadowRoot config t ++ name :: rest <+: l ++ [other] →
      shadowRoot config t ++ [name] <+: l := by
    intro l other hbelow
    have hname : shadowRoot config t ++ [name] <+: l ++ [other] := List.IsPrefix.trans (by simp) hbelow
    refine (List.prefix_concat_iff.mp hname).resolve_left fun heq => hrest ?_
    rw [← heq, List.prefix_append_right_inj, List.cons_prefix_cons] at hbelow
    exact List.prefix_nil.mp hbelow.2
  rintro (hstore | hclaims)
  · have hend := hstore.isPrefix (by
      rw [Path.names_child ArtifactStore.isName_stagingName.isPart]
      simpa [hprograms] using ArtifactStore.isName_stagingName.ne_up.symm)
    rw [Path.destination_child ArtifactStore.isName_stagingName.isPart] at hend
    exact hout (hlong _ _ hend)
  · have hend := hclaims.isPrefix (by
      rw [Path.names_child isName_claimsName.isPart]
      simpa [hshadow] using isName_claimsName.ne_up.symm)
    rw [Path.destination_child isName_claimsName.isPart] at hend
    have hlengths := (hlong _ _ hend).length_le
    rw [← shadowRoot, List.length_append, List.length_singleton] at hlengths
    omega

/-- Where nothing was in the root, nothing is when it is cleared, except on the way. -/
theorem Cleared.free (h : Cleared config processes t removed now)
    (hfree : t.node? (shadowRoot config t ++ [name]) = none) :
    now.node? (shadowRoot config t ++ [name]) = none ∨
      MadeOnWay config t now (shadowRoot config t ++ [name]) := by
  by_cases hunder : Under (shadowRoot config t) removed (shadowRoot config t ++ [name])
  · exact Or.inl (h.below _ hunder)
  · exact (h.node _ hunder).imp_left fun hkept => hkept.trans hfree

/-- The directory that a start made for itself is removed when the system does not refuse it. -/
theorem removed_of_closing {closing : List FileEvent} {removal : Except OsError Unit} {p : Path}
    (hclosing : History (perform (.removeTree p)) next closing removal t')
    (hthere : next.isDirectory p = true)
    (hremoved : RemovalsSucceed closing ∨ ∀ event ∈ closing, event.IsNatural) :
    t' = next.eraseBelow (p.destination next.workingDirectory) := by
  obtain ⟨t₁, hremove⟩ := exists_removeTree hthere
  rcases history_perform_iff.mp hclosing with ⟨happly, -, -⟩ | ⟨e, -, rfl, rfl⟩
  · exact removeTree_ok happly
  · rcases hremoved with hsucceed | hnatural
    · cases hsucceed _ List.mem_cons_self _ rfl (directory_of_removeTree hremove)
    · have houtcome := hnatural _ List.mem_cons_self
      rw [FileEvent.IsNatural, outcome, show (FileOp.removeTree p).apply t' = .ok t₁ from hremove] at houtcome
      cases houtcome

/-- A start that fails leaves no new directory in the root, except on the way. -/
theorem StartCourse.free {f : Failure} (h : StartCourse config processes t events (.error f) t')
    (hremoved : RemovalsSucceed events ∨ ∀ event ∈ events, event.IsNatural)
    (hfree : t.node? (shadowRoot config t ++ [name]) = none) :
    t'.node? (shadowRoot config t ++ [name]) = none ∨
      MadeOnWay config t t' (shadowRoot config t ++ [name]) := by
  cases h with
  | refused e hinvalid => exact Or.inl hfree
  | unprepared _ _ _ hcleared => exact hcleared.free hfree
  | homeless _ _ hcleared _ => exact hcleared.free hfree
  | @undone _ closing _ owner now next _ _ _ _ hcleared _ hsound howner hmake hclosing hpart =>
      obtain ⟨hdestination, -, hthere, hnext⟩ := snapshot_of_make hcleared hsound howner hmake
      have hwd : next.workingDirectory = t.workingDirectory := by
        rw [hnext]
        exact hcleared.workingDirectory
      have hne : shadowRoot config t ++ [owner] ≠ [] := by simp
      obtain rfl := removed_of_closing hclosing hthere
        (hremoved.imp (fun h => h.of_subset hpart) fun h event hevent => h event (hpart hevent))
      rw [MadeOnWay, hwd, hdestination, node?_eraseBelow_of_ne hne]
      split
      · exact Or.inl rfl
      · next hnot =>
        rw [hnext, node?_put_of_ne hne, if_neg fun heq => hnot (by rw [heq])]
        exact hcleared.free hfree

/-- What belongs to no process that is gone stays as it is, except on the way. -/
theorem StartCourse.spared (h : StartCourse config processes t events result t')
    (hthere : t.node? (shadowRoot config t ++ [name]) ≠ none) (hnot : ¬IsStale config processes t name)
    (rest : List String) :
    t'.node? (shadowRoot config t ++ name :: rest) = t.node? (shadowRoot config t ++ name :: rest) ∨
      MadeOnWay config t t' (shadowRoot config t ++ name :: rest) := by
  obtain ⟨removed, now, hcleared, hsame, -⟩ := h.exists_cleared
  rw [MadeOnWay, hsame]
  · refine hcleared.node _ (mt under_below.mp fun hmem => ?_)
    obtain ⟨hgone, hdirectory | hfree⟩ := hcleared.gone name hmem
    · exact hnot ⟨hgone, hdirectory⟩
    · exact hthere hfree
  · intro owner howner hfree hbelow
    exact hthere (child_isPrefix_below.mp hbelow ▸ hfree)

/-- All that belongs to processes that are gone goes away with what is in it. -/
theorem StartCourse.swept (h : StartCourse config processes t events result t')
    (hvalid : config.validate = .ok ()) (hmade : DirectoriesMade config result)
    (hsucceed : RemovalsSucceed events) (hne : config.shadowDir.text ≠ "")
    (hstale : IsStale config processes t name) (rest : List String) :
    t'.node? (shadowRoot config t ++ name :: rest) = none := by
  obtain ⟨removed, now, hcleared, hsame, hall⟩ := h.exists_cleared
  rw [hsame]
  · exact hcleared.below _ (under_below.mpr (hall hvalid hmade hsucceed hne name hstale))
  · intro owner howner _ hbelow
    exact howner.not_isOfGone (child_isPrefix_below.mp hbelow ▸ hstale.1)

end Outcome

section Lamp

/-- A removal that was refused. -/
def isRefusedRemoval (event : FileEvent) : Bool :=
  match event.op, event.outcome with
  | .removeTree _, .error _ => true
  | _, _ => false

theorem removalsSucceed_of_none (h : events.any isRefusedRemoval = false) : RemovalsSucceed events := by
  intro event hevent p hop _
  cases houtcome : event.outcome with
  | ok _ => rfl
  | error e =>
      have hrefused : events.any isRefusedRemoval = true :=
        List.any_eq_true.mpr ⟨event, hevent, by simp [isRefusedRemoval, hop, houtcome]⟩
      cases h.symm.trans hrefused

theorem directoriesMade_of_isOk (h : result.isOk = true) : DirectoriesMade config result := by
  rintro f rfl
  cases h

/-- What an environment of the process 1 does when it starts and no other process is there. -/
def startAlone (config : EngineConfig) : FileAction (Except Failure (Environment × Registry × Nat)) :=
  (start config ⟨1, []⟩ 0).run

/-- The shadow root of a lamp, with what is left of a process that is gone and with notes on the lamp. -/
def lampShadow : FileTree :=
  ⟨[], [(["programs"], .directory), (["programs", ".shadow"], .directory),
    (["programs", ".shadow", "9-lamp"], .directory),
    (["programs", ".shadow", "9-lamp", "1.unit"], .file "on".toUTF8 true),
    (["programs", ".shadow", "notes"], .directory),
    (["programs", ".shadow", "notes", "lamp"], .file "off".toUTF8 false)]⟩

/-- A configuration whose shadow root is written through an entry of it. -/
def throughNotes : EngineConfig :=
  { EngineConfig.standard with shadowDir := ⟨"s/notes/sub/../.."⟩ }

/-- A host with notes in a directory. -/
def notesHost : FileTree := ⟨[], [(["s"], .directory), (["s", "notes"], .directory)]⟩

/-- A configuration whose shadow root is the working directory, with an empty path. -/
def bareShadow : EngineConfig :=
  { EngineConfig.standard with programsDir := ⟨"/programs"⟩, shadowDir := ⟨""⟩ }

/-- A host with a directory of a process that is gone in the working directory. -/
def goneHost : FileTree := ⟨["s"], [(["s"], .directory), (["s", "9-lamp"], .directory)]⟩

end Lamp

end Environment

end Automation
