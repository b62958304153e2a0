import Automation.Proofs.Engine.Holdings
import Automation.Proofs.Files.Soundness
import Automation.Proofs.Sharing.Starting

/-
The snapshots of an environment.

When an environment starts on a sound host, its snapshot directory is new and has nothing in it, and
the directories for staging and for claims are elsewhere.  From then on there are exactly the snapshots
of the contexts that are bound, as long as no unit or compiler touches them and writing one does not
break off.  For this the way to the directory must not lead through what a compile clears away.
-/

namespace Automation

open FileAction

variable {τ : Type}

/-- The snapshot directory of an environment, and what else it writes to. -/
def Environment.depot (e : Environment) (extension : String) (wd : Location) : Depot where
  directory := e.snapshotDir
  extension := extension
  store := e.store
  claims :=
    { directory := e.config.shadowDir.child Environment.claimsName
      ownersRoot := e.config.shadowDir
      owner := e.snapshotDir.fileName?.getD "" }
  workingDirectory := wd

section Start

variable {config : EngineConfig} {processes : ProcessTable} {wd : Location} {n : Nat}
  {t t' : FileTree}

/-- A sound host with a process that is somewhere. -/
structure Ground (wd : Location) (t : FileTree) : Prop where
  workingDirectory : t.workingDirectory = wd
  sound : t.Sound

/-- What the way to the staging area leads through in the shadow directory is there, unless it is named
after a process that is gone. -/
structure Staked (config : EngineConfig) (processes : ProcessTable) (wd : Location) (t : FileTree) :
    Prop extends Ground wd t where
  way : ∀ before, before <+: (config.programsDir.child ArtifactStore.stagingName).names →
    ∀ name, Environment.isDead processes name = false →
      config.shadowDir.destination wd ++ [name] <+: FileTree.lead
        ((config.programsDir.child ArtifactStore.stagingName).origin wd) before →
      t.node? (config.shadowDir.destination wd ++ [name]) ≠ none

/-- There is a snapshot directory in the shadow directory with nothing in it, away from the staging
area. -/
structure Furnished (config : EngineConfig) (processes : ProcessTable) (wd : Location)
    (snapshot : Path) (t : FileTree) : Prop where
  workingDirectory : t.workingDirectory = wd
  owner : ∃ owner, Environment.IsOwnerOf processes.self owner ∧ snapshot.fileName? = some owner ∧
    snapshot.destination wd = config.shadowDir.destination wd ++ [owner]
  reaches : t.Reaches snapshot (snapshot.destination wd)
  empty : ∀ rest, rest ≠ [] → t.node? (snapshot.destination wd ++ rest) = none
  around : (config.programsDir.child ArtifactStore.stagingName).Avoids wd
    (snapshot.destination wd)

theorem Ground.meets_makeDirectory (p : Path) :
    Meets (Ground wd) (perform (.makeDirectory p)) fun _ => Ground wd :=
  meets_perform_of_keeps fun t t' ht happly => by
    obtain ⟨-, rfl⟩ := FileTree.makeDirectory_ok happly
    exact ⟨ht.workingDirectory, ht.sound.of_makeDirectory happly⟩

theorem Staked.meets_makeDirectory (p : Path) :
    Meets (Staked config processes wd) (perform (.makeDirectory p))
      fun _ => Staked config processes wd := by
  refine meets_perform_of_keeps fun t t' ht happly => ?_
  have hsound := ht.sound.of_makeDirectory happly
  obtain ⟨hfree, rfl⟩ := FileTree.makeDirectory_ok happly
  refine ⟨⟨ht.workingDirectory, hsound⟩, fun before hbefore name hname hway => ?_⟩
  have hthere := ht.way before hbefore name hname hway
  rw [FileTree.node?_put_other]
  · exact hthere
  · intro heq
    exact hthere (heq ▸ hfree)

/-- The staging area is made with all that is on the way to it. -/
theorem staked_of_ensureDirectories :
    FileTask.Meets (Ground wd) (ArtifactStore.ofConfig config).ensureDirectories
      (fun _ => Staked config processes wd) fun _ => True := by
  have hkept : Meets (Ground wd)
      (createDirectory (config.programsDir.child ArtifactStore.stagingName)) fun _ => Ground wd :=
    meets_makeDirectories fun p _ _ => Ground.meets_makeDirectory p
  have hmade := createDirectory_isDirectory (p := config.programsDir)
    ArtifactStore.isName_stagingName
  refine FileTask.meets_during (Meets.mono (hkept.and (hmade.mono (fun _ _ => trivial)
    fun _ _ h => h)) (fun _ ht => ht) fun made t ht => ?_)
  obtain ⟨hground, hthere⟩ := ht
  cases made with
  | error e => trivial
  | ok _ =>
      obtain ⟨hreaches, ⟨hsize, -⟩, hnode⟩ :=
        (FileTree.isDirectory_child_iff ArtifactStore.isName_stagingName).mp (hthere rfl)
      have hway := hreaches.child ArtifactStore.isName_stagingName hsize hnode
      refine ⟨hground, fun before hbefore name _ hunder => ?_⟩
      have hdirectory := hway.directory_of_isPrefix hbefore
      rw [hground.workingDirectory] at hdirectory
      exact hground.sound.around hunder (by simp [hdirectory])

/-- The directories that are removed are those of processes that are gone. -/
theorem staked_of_removeDeadSnapshots :
    Meets (Staked config processes wd)
      (Environment.removeDeadSnapshots processes config.shadowDir)
      fun _ => Staked config processes wd := by
  refine Environment.meets_removeDeadSnapshots_of_keeps IsName
    (fun name hname => hname.isPart) (fun t name ht hthere _ => (ht.sound.housed _ _ hthere).1)
    fun t name ht hname hdead => ?_
  rw [ht.workingDirectory]
  refine ⟨⟨ht.workingDirectory, ht.sound.eraseBelow (by simp)⟩,
    fun before hbefore other hother hway => ?_⟩
  rw [FileTree.node?_eraseBelow_of_ne (by simp), if_neg]
  · exact ht.way before hbefore other hother hway
  · intro hunder
    obtain rfl : name = other := by
      simpa using List.append_cancel_left (hunder.eq_of_length (by simp))
    cases hother.symm.trans hdead

/-- A snapshot directory is made where nothing was. -/
theorem Staked.furnished {owner : String} (h : Staked config processes wd t)
    (hself : processes.self < Environment.pidLimit)
    (howner : Environment.IsOwnerOf processes.self owner)
    (hmake : t.makeDirectory ((t.absolute config.shadowDir).child owner) = .ok t') :
    Furnished config processes wd ((t.absolute config.shadowDir).child owner) t' := by
  have hdestination : ((t.absolute config.shadowDir).child owner).destination wd =
      config.shadowDir.destination wd ++ [owner] := by
    rw [Path.destination_child howner.isName.isPart, Path.destination_absolute h.sound.place,
      h.workingDirectory]
  have hthere := FileTree.isDirectory_of_makeDirectory howner.isName hmake
  obtain ⟨hfree, rfl⟩ := FileTree.makeDirectory_ok hmake
  rw [h.workingDirectory, hdestination] at hfree hthere ⊢
  refine ⟨h.workingDirectory, ⟨owner, howner, Path.fileName?_child howner.isName.isPart _,
    hdestination⟩, ?_, fun rest hrest => ?_, fun before hbefore hway => ?_⟩
  · obtain ⟨hreaches, ⟨hsize, -⟩, hnode⟩ :=
      (FileTree.isDirectory_child_iff howner.isName).mp hthere
    have hreached := hreaches.child howner.isName hsize hnode
    have hend := hreached.destination
    have hplace : (t.put (config.shadowDir.destination wd ++ [owner]) .directory).workingDirectory =
        wd := h.workingDirectory
    rw [hplace] at hend hreached
    rw [hend]
    exact hreached
  · rw [hdestination, FileTree.node?_put_other _ (by simpa using hrest)]
    by_contra hsome
    exact h.sound.around (List.prefix_append _ _) hsome hfree
  · have halive : Environment.isDead processes owner = false := by
      rw [howner.isDead hself, ProcessTable.isAlive]
      simp
    rw [hdestination] at hway
    exact h.way before hbefore owner halive hway hfree

theorem furnished_of_makeSnapshotDirectory (hself : processes.self < Environment.pidLimit) :
    FileTask.Meets (Staked config processes wd)
      (Environment.makeSnapshotDirectory processes config.shadowDir n)
      (fun snapshot => Furnished config processes wd snapshot.1) fun _ => True :=
  meets_makeSnapshotDirectory_of_made
    (fun _ _ _ ht howner hmake => ht.furnished hself howner hmake) fun _ _ => trivial

/-- An environment that has started has room for the copies of its units, and none of them yet. -/
theorem Environment.start_furnished (config : EngineConfig) (n : Nat)
    (hself : processes.self < pidLimit) :
    FileTask.Meets (Ground wd) (start config processes n)
      (fun started t =>
        started.1.config = config ∧ started.1.store = ArtifactStore.ofConfig config ∧
          Furnished config processes wd started.1.snapshotDir t ∧
          started.2.1 = .withClaims ⟨config.shadowDir.child claimsName, config.shadowDir,
            started.1.snapshotDir.fileName?.getD ""⟩) fun _ => True := by
  have hshared : FileTask.Meets (Staked config processes wd)
      (FileTask.during (.createShadowDirectory (config.shadowDir.child claimsName))
        (createDirectory (config.shadowDir.child claimsName)))
      (fun _ => Staked config processes wd) fun _ => True := by
    refine FileTask.meets_during (Meets.mono (meets_makeDirectories fun p _ _ =>
      Staked.meets_makeDirectory p) (fun _ ht => ht) fun made t ht => ?_)
    cases made with
    | ok _ => exact ht
    | error e => trivial
  exact meets_start (fun _ _ => trivial) staked_of_ensureDirectories hshared
    staked_of_removeDeadSnapshots (furnished_of_makeSnapshotDirectory hself)
    (fun _ => meets_readTemplate) (fun _ _ _ ht => ⟨rfl, rfl, ht, rfl⟩)
    fun _ => ⟨fun _ _ => trivial⟩

section Furnishings

variable {e : Environment} {extension : String}

theorem Furnished.apart (h : Furnished config processes wd e.snapshotDir t)
    (hself : processes.self < Environment.pidLimit) (hconfig : e.config = config)
    (hstore : e.store = ArtifactStore.ofConfig config) (hnamed : e.store.WellNamed)
    (extension : String) : (e.depot extension wd).Apart := by
  obtain ⟨owner, howner, hname, hplace⟩ := h.owner
  have houtside : ∀ name, IsPart name → ¬(e.depot extension wd).place <+:
      ((config.shadowDir.child Environment.claimsName).child name).destination wd := by
    intro name hpart hunder
    change e.snapshotDir.destination wd <+: _ at hunder
    rw [hplace, Path.destination_child hpart, Path.destination_child isName_claimsName.isPart,
      List.append_assoc, List.prefix_append_right_inj] at hunder
    obtain rfl : owner = Environment.claimsName := (List.cons_prefix_cons.mp hunder).1
    exact Environment.IsOwner.ne_claimsName ⟨_, hself, howner⟩ rfl
  refine ⟨hnamed, ?_, fun address haddress => ?_, fun address haddress => ?_⟩
  · have haround := h.around
    rw [← show e.store.programsDir = config.programsDir by rw [hstore]; rfl] at haround
    exact haround
  · rw [Environment.depot, hconfig]
    exact houtside address (isName_of_isAddress haddress).isPart
  · rw [Environment.depot, hconfig, hname]
    exact houtside _ (Claims.isName_pendingName howner.isAddress haddress).isPart

/-- There is nothing in the depot yet. -/
theorem Furnished.shelf (h : Furnished config processes wd e.snapshotDir t) (extension : String) :
    (e.depot extension wd).Shelf (fun _ => False) t := by
  refine ⟨h.workingDirectory, h.reaches, fun rest content => ?_, fun rest hdirectory => ?_,
    fun _ => False.elim, fun _ => False.elim⟩
  · constructor
    · intro hcontent
      obtain ⟨executable, hnode⟩ := FileTree.contentAt?_eq_some_iff.mp hcontent
      by_cases hrest : rest = []
      · subst hrest
        rw [List.append_nil] at hnode
        cases hnode.symm.trans h.reaches.directory
      · cases hnode.symm.trans (h.empty rest hrest)
    · rintro ⟨c, hc, -⟩
      exact hc.elim
  · by_contra hlong
    have hrest : rest ≠ [] := by
      rintro rfl
      simp at hlong
    cases hdirectory.symm.trans (h.empty rest hrest)

end Furnishings

end Start

namespace Site

variable {w : World τ} {config : EngineConfig} {shared : SharedEnvironment}

/-- An environment that is the first one at a site has an empty depot. -/
theorem holdings_started (hsound : w.host.files.Sound)
    (hself : w.host.processes.self < Environment.pidLimit)
    (hstart : Table.get? 0 ((ofWorld w : Site τ IsolatedEntry).after
      [.startEnvironment config]).environments = some shared) (extension : String) :
    (shared.environment.depot extension w.host.files.workingDirectory).Apart ∧
      ((ofWorld w : Site τ IsolatedEntry).after [.startEnvironment config]).Holdings
        (shared.environment.depot extension w.host.files.workingDirectory) 0 := by
  have hfurnished := (Environment.start_furnished config w.host.fresh hself).run w.host.files
    ⟨rfl, hsound⟩
  have hnamed := (Environment.start_wellNamed config w.host.processes w.host.fresh).run
    w.host.files trivial
  have hafter : ((ofWorld w : Site τ IsolatedEntry).after [.startEnvironment config]) =
      ((SiteAct.startEnvironment config).run (ofWorld w : Site τ IsolatedEntry)).2 := rfl
  rw [hafter] at hstart ⊢
  rcases startEnvironment_outcomes config (ofWorld w : Site τ IsolatedEntry) with
    ⟨f, t, -, hrun⟩ | ⟨environment, registry, next, t, hok, hrun⟩
  · rw [hrun] at hstart
    cases hstart
  rw [hrun] at hstart ⊢
  obtain rfl := Option.some.inj hstart
  have hok' : FileAction.run (Environment.start config w.host.processes w.host.fresh).run
      w.host.files = (.ok (environment, registry, next), t) := hok
  rw [hok'] at hfurnished hnamed
  obtain ⟨hconfig, hstore, hmade, hregistry⟩ := hfurnished
  have hapart := hmade.apart hself hconfig hstore hnamed extension
  have hshelf := hmade.shelf extension
  refine ⟨hapart, ?_⟩
  exact {
    workingDirectory := hmade.workingDirectory
    environment := fun n found hfound => by
      rw [Table.get?_put] at hfound
      split at hfound
      · next heq =>
        obtain rfl := Option.some.inj hfound
        refine ⟨heq, rfl, rfl, ?_⟩
        dsimp only at hregistry ⊢
        rw [hregistry, Environment.depot, hconfig]
        rfl
      · cases hfound
    engines := fun _ _ hfound => by cases hfound
    programs := fun _ _ hfound => by cases hfound
    equipped := fun _ _ hfound => by cases hfound
    clear := fun _ _ haddress => by cases haddress
    seated := fun _ _ hfound => by cases hfound
    entry := fun _ _ _ _ hfound => by cases hfound
    loaded := fun _ _ _ hfound => by cases hfound
    apart := fun _ _ _ _ hcopy => by cases hcopy
    counted := fun _ _ _ hcopies => by
      obtain ⟨id, hcopy⟩ := hcopies
      cases hcopy
    shelf := fun _ => hshelf.congr fun c => iff_of_false (fun ⟨_, hcopy⟩ => by cases hcopy) id
    shut := fun hnone => by cases hnone }

end Site

end Automation
