import Automation.Proofs.Engine.Compiling
import Automation.Proofs.Engine.Loading
import Automation.Proofs.Engine.Shelves

/-
How engines keep the copies of their units.

Every act of an engine leaves on the shelf the copies of others and its own: binding adds the copy of
the new context, or nothing if it fails; giving up an outdated context and tearing down take the copy
of the old one away; and asking a unit, loading and compiling change none.
-/

namespace Automation

open FileAction

variable {τ α β : Type}

namespace EngineAct

variable {d : Depot}

/-- Nothing becomes of the copies in the act, as long as their directory is there. -/
def IsSteady (d : Depot) (act : EngineAct τ IsolatedEntry α) : Prop :=
  ∀ s : EngineState τ IsolatedEntry, d.Stands s.world.host.files → s.Steady d (act.run s).2

theorem IsSteady.bind {act : EngineAct τ IsolatedEntry α} {f : α → EngineAct τ IsolatedEntry β}
    (hact : act.IsSteady d) (hf : ∀ value, (f value).IsSteady d) : (act >>= f).IsSteady d := by
  intro s hs
  have hfirst := hact s hs
  exact hfirst.trans (hf _ _ (hs.spared hfirst.spared))

/-- To look at the world leaves it alone. -/
theorem isSteady_look (f : World τ → α) :
    (inWorld fun w => (f w, w) : EngineAct τ IsolatedEntry α).IsSteady d :=
  fun s _ => .refl d s

theorem isSteady_program : (program : EngineAct τ IsolatedEntry _).IsSteady d :=
  fun s _ => .refl d s

theorem isSteady_address : (address : EngineAct τ IsolatedEntry _).IsSteady d :=
  fun s _ => .refl d s

theorem isSteady_slot : (slot : EngineAct τ IsolatedEntry _).IsSteady d := fun s _ => .refl d s

theorem isSteady_editProgram {f : ProgramBlock → ProgramBlock}
    (hf : ∀ p, (f p).address = p.address) :
    (editProgram f : EngineAct τ IsolatedEntry Unit).IsSteady d :=
  fun s _ => ⟨.refl _ _, hf s.program, rfl, rfl, rfl⟩

end EngineAct

namespace Watched

open EngineAct IsolatedEntry

variable {d : Depot} {others : UnitCopy → Prop} {s : EngineState τ IsolatedEntry}
  {context : BoundContext IsolatedEntry} {image : ArtifactImage}

/-- Told at this state, an engine keeps the copies of others and its own on the shelf, unless writing a
snapshot breaks off. -/
def TidyAt (d : Depot) (others : UnitCopy → Prop) (told : Watched τ IsolatedEntry α)
    (s : EngineState τ IsolatedEntry) : Prop :=
  Stocked d others s →
    (∀ moment ∈ told.moments s, moment.breaksOff d.directory d.extension = false) →
      Stocked d others (told.act.run s).2

theorem tidyAt_pure (value : α) (s : EngineState τ IsolatedEntry) :
    (pure value : Watched τ IsolatedEntry α).TidyAt d others s :=
  fun hs _ => hs

theorem TidyAt.bind {told : Watched τ IsolatedEntry α} {f : α → Watched τ IsolatedEntry β}
    (hfirst : told.TidyAt d others s)
    (hsecond : (f (told.act.run s).1).TidyAt d others (told.act.run s).2) :
    (told >>= f).TidyAt d others s := by
  intro hs hwhole
  rw [moments_bind] at hwhole
  exact hsecond (hfirst hs fun moment hmoment => hwhole moment (List.mem_append_left _ hmoment))
    fun moment hmoment => hwhole moment (List.mem_append_right _ hmoment)

theorem tidyAt_quietly {act : EngineAct τ IsolatedEntry α} (hact : act.IsSteady d)
    (s : EngineState τ IsolatedEntry) : (quietly act).TidyAt d others s :=
  fun hs _ => hs.steady (hact s hs.stands)

/-- Acts one after the other that are not watched. -/
theorem TidyAt.quietly_bind {act : EngineAct τ IsolatedEntry α}
    {f : α → EngineAct τ IsolatedEntry β} (hfirst : (quietly act).TidyAt d others s)
    (hsecond : (quietly (f (act.run s).1)).TidyAt d others (act.run s).2) :
    (quietly (act >>= f)).TidyAt d others s :=
  hfirst.bind (f := fun value => quietly (f value)) hsecond

/-- To ask the entry of the context that is bound leaves it its snapshot. -/
theorem tidyAt_asking {request : Request} {call : Act τ (α × IsolatedEntry)}
    (hbound : s.slot.context? = some context)
    (hasked : Asked d.directory context.entry call) :
    (asking request context call).TidyAt d others s := by
  intro hs _
  refine hs.steady ⟨hasked.1 s.world, rfl, rfl, Slot.image?_withEntry _ _, ?_⟩
  rw [act_asking, Engine.run_ask, Slot.context?_withEntry, hbound, Option.map_some,
    Option.map_some, Option.map_some, hasked.2]

section Engines

variable {e : Engine τ IsolatedEntry}

theorem release_eq {launcher : Launcher τ}
    (hloader : e.loader = .isolated launcher d.directory d.extension) (entry : IsolatedEntry) :
    e.loader.capabilities.release entry = entry.release launcher := by
  rw [hloader]
  rfl

/-- Tearing down takes the copy of the context away. -/
theorem tidyAt_teardown (hd : d.Apart) (he : d.Serves e) (s : EngineState τ IsolatedEntry) :
    (quietly e.teardown).TidyAt d others s := by
  intro hs _
  obtain ⟨launcher, hlauncher, hloader⟩ := he.loader
  rw [act_quietly]
  simp only [Engine.teardown, EngineAct.run_bind, run_slot, run_setSlot]
  cases hslot : s.slot with
  | unloaded => exact hs.setSlot (by rw [hslot]; rfl) rfl fun hne => (hne rfl).elim
  | loaded image bound =>
      cases bound with
      | none => exact hs.setSlot (by rw [hslot]; rfl) rfl fun hne => (hne rfl).elim
      | some context =>
          have hclosed := hs.closed context.generation hd
            (hs.loaded (by rw [hslot]; simp))
          have hgone := hclosed.released .unloaded hlauncher hslot rfl
          simp only [Slot.context?, EngineAct.run_bind, run_address, run_closeContext, run_inWorld,
            release_eq hloader]
          exact hgone

/-- An outdated context is given up with its copy. -/
theorem tidyAt_dropOutdated (hd : d.Apart) (he : d.Serves e)
    (hslot : s.slot = .loaded image (some context)) :
    (quietly (e.dropOutdated s.program.address image context)).TidyAt d others s := by
  intro hs _
  obtain ⟨launcher, hlauncher, hloader⟩ := he.loader
  have haddress : isAddress s.program.address = true := hs.loaded (by rw [hslot]; simp)
  have hclosed := hs.closed context.generation hd haddress
  have hgone := hs.released (.loaded image none) hlauncher hslot rfl
  have hretired := hclosed.released (.loaded image none) hlauncher hslot rfl
  rw [act_quietly, Engine.dropOutdated, EngineAct.run_bind, run_isLive]
  rw [← release_eq hloader] at hgone hretired
  cases hlive : s.registry.isLive s.program.address context.generation with
  | false => exact hgone
  | true =>
      change Stocked d others ((if (!e.loader.capabilities.isUsable context.entry s.world) = true
        then _ else pure (some context) : EngineAct τ IsolatedEntry _).run s).2
      cases e.loader.capabilities.isUsable context.entry s.world with
      | false => exact hretired
      | true => exact hs

/-- Binding adds the copy of the new context, or none if it fails. -/
theorem tidyAt_bindImage (hd : d.Apart) (he : d.Serves e) (hslot : s.slot = .loaded image none) :
    (bindImage e s.program.address image).TidyAt d others s := by
  intro hs hwhole
  obtain ⟨launcher, hlauncher, hloader⟩ := he.loader
  have haddress : isAddress s.program.address = true := hs.loaded (by rw [hslot]; simp)
  have hopened := hs.opened hd haddress
  simp only [Watched.bindImage, moments_bind, opening] at hwhole
  rw [act_bindImage, Engine.bindImage, EngineAct.run_bind]
  rw [run_openContext] at hwhole hopened ⊢
  rcases Registry.openContext_cases s.registry s.program.address s.world.host.files with
    ⟨-, hopen⟩ | ⟨refusal, hopen⟩
  · rw [hopen] at hwhole hopened ⊢
    let request : BindRequest := ⟨s.program.address,
      s.registry.lastGeneration s.program.address + 1, image, e.environment.config.entryType,
      e.environment.config.host.endpoint⟩
    -- The counter has never been as high.
    have hnew : ∀ other, others other → ¬request.copy.SameUnit other := by
      rintro other hother ⟨hsame, hgeneration⟩
      have hcounted := hs.counted other (Or.inl hother)
      rw [← hsame, ← hgeneration] at hcounted
      exact absurd hcounted (Nat.not_succ_le_self _)
    have hunbroken := hwhole _ (List.mem_append_left _ (List.mem_singleton_self _))
    simp only [Moment.breaksOff, hslot, Slot.image?_loaded] at hunbroken
    have hbefore := hopened.shelf_of_unbound (by rw [hslot]; rfl)
    have hanswers := hbefore.answers_bindEntry hlauncher haddress hnew hunbroken
    rw [← hloader] at hanswers
    simp only [EngineAct.run_bind, run_inWorld]
    generalize hmade : (e.loader.bindEntry request).run _ = made at hanswers
    cases hanswers with
    | refused hsame => exact (hopened.unbound (by rw [hslot]; rfl) hsame).closed _ hd haddress
    | bound hsnapshot hadded =>
        exact hopened.bound (c := request.copy) haddress rfl hnew (by simp [request]) hadded hsnapshot
  · rw [hopen] at hopened ⊢
    exact hopened

/-- Making sure of a context leaves its copy. -/
theorem tidyAt_ensureBound (hd : d.Apart) (he : d.Serves e) (s : EngineState τ IsolatedEntry) :
    (ensureBound e).TidyAt d others s := by
  refine (tidyAt_quietly isSteady_address s).bind ?_
  refine (tidyAt_quietly isSteady_slot s).bind ?_
  simp only [act_quietly, run_address, run_slot]
  split
  · exact tidyAt_pure _ s
  · next hslot => exact tidyAt_bindImage hd he hslot
  · next image context hslot =>
    refine (tidyAt_dropOutdated hd he hslot).bind ?_
    simp only [act_quietly]
    rcases e.dropOutdated_cases s.program.address image context s with
      ⟨-, hrun⟩ | ⟨-, w, hrun⟩ | ⟨-, w, hrun⟩
    · rw [hrun]
      exact tidyAt_pure _ s
    · rw [hrun]
      exact tidyAt_bindImage hd he rfl
    · rw [hrun]
      exact tidyAt_bindImage hd he rfl

/-- Loading tears down what was loaded before, and reads without a step. -/
theorem tidyAt_load (hd : d.Apart) (he : d.Serves e) (s : EngineState τ IsolatedEntry) :
    (quietly e.load).TidyAt d others s := by
  intro hs hwhole
  have hcleared : Stocked d others (e.cleared s) := by
    rw [Engine.cleared]
    split
    · exact tidyAt_teardown hd he s hs hwhole
    · exact hs
  have hempty := e.slot_cleared s
  rw [act_quietly, e.load_run]
  cases hread : e.stored (e.cleared s) with
  | ok image =>
      rw [e.run_copyStored_ok _ hread]
      exact hcleared.setSlot (by rw [hempty]; rfl) rfl fun _ => e.isAddress_of_stored _ hread
  | error f =>
      rw [e.run_copyStored_error _ hread]
      refine hcleared.steady ⟨.refl _ _, ?_, rfl, rfl, rfl⟩
      dsimp only
      split <;> rfl

/-- What an entry that was started from a copy is asked, it is asked of its launcher. -/
theorem asked_of_serves {entry : IsolatedEntry} (he : d.Serves e)
    (call : Capabilities τ IsolatedEntry → Act τ (α × IsolatedEntry))
    (hcall : ∀ launcher : Launcher τ, launcher.Spares d.directory →
      Asked d.directory entry (call (IsolatedEntry.capabilities launcher))) :
    Asked d.directory entry (call e.loader.capabilities) := by
  obtain ⟨launcher, hlauncher, hloader⟩ := he.loader
  rw [hloader]
  exact hcall launcher hlauncher

theorem asked_setup {entry : IsolatedEntry} (he : d.Serves e) :
    Asked d.directory entry (e.loader.capabilities.setup entry) :=
  asked_of_serves he (·.setup entry) fun _ hlauncher => asked_invoke hlauncher entry .setup

theorem asked_run {entry : IsolatedEntry} (he : d.Serves e) (options : String) :
    Asked d.directory entry (e.loader.capabilities.run entry options) :=
  asked_of_serves he (·.run entry options) fun _ hlauncher =>
    asked_invoke hlauncher entry (.run options)

theorem asked_reset {entry : IsolatedEntry} (he : d.Serves e) :
    Asked d.directory entry (e.loader.capabilities.reset entry) :=
  asked_of_serves he (·.reset entry) fun _ hlauncher => asked_command hlauncher entry .reset

theorem tidyAt_setup (hd : d.Apart) (he : d.Serves e) (s : EngineState τ IsolatedEntry) :
    (setup e).TidyAt d others s := by
  refine (tidyAt_ensureBound hd he s).bind ?_
  simp only [act_ensureBound]
  split
  · exact tidyAt_pure _ _
  · next context hbound =>
    obtain ⟨-, -, hslot⟩ := e.ensureBound_some hbound
    refine (tidyAt_asking hslot (asked_setup he)).bind ?_
    split
    · exact tidyAt_pure _ _
    · refine (tidyAt_quietly isSteady_program _).bind ?_
      extract_lets
      split
      · refine (tidyAt_quietly (isSteady_look _) _).bind ?_
        exact (tidyAt_quietly (isSteady_editProgram fun _ => by rfl) _).bind (tidyAt_pure _ _)
      · exact tidyAt_pure _ _

theorem tidyAt_run (hd : d.Apart) (he : d.Serves e) (options : String)
    (s : EngineState τ IsolatedEntry) : (run e options).TidyAt d others s := by
  refine (tidyAt_ensureBound hd he s).bind ?_
  simp only [act_ensureBound]
  split
  · exact tidyAt_pure _ _
  · next context hbound =>
    obtain ⟨-, -, hslot⟩ := e.ensureBound_some hbound
    refine (tidyAt_asking hslot (asked_run he options)).bind ?_
    refine (tidyAt_quietly (isSteady_look _) _).bind ?_
    exact (tidyAt_quietly (isSteady_editProgram fun _ => by rfl) _).bind (tidyAt_pure _ _)

theorem tidyAt_reset (he : d.Serves e) (s : EngineState τ IsolatedEntry) :
    (reset e).TidyAt d others s := by
  refine (tidyAt_quietly isSteady_slot s).bind ?_
  simp only [act_quietly, run_slot]
  split
  · exact tidyAt_pure _ _
  · next context hbound =>
    refine (tidyAt_quietly (isSteady_look _) _).bind ?_
    split
    · exact tidyAt_asking hbound (asked_reset he)
    · exact tidyAt_pure _ _

theorem tidyAt_unload (hd : d.Apart) (he : d.Serves e) (s : EngineState τ IsolatedEntry) :
    (unload e).TidyAt d others s := by
  refine (tidyAt_reset he s).bind ?_
  refine (tidyAt_quietly (isSteady_editProgram fun _ => by rfl) _).bind ?_
  exact tidyAt_teardown hd he _

theorem tidyAt_dispose (hd : d.Apart) (he : d.Serves e) (s : EngineState τ IsolatedEntry) :
    (dispose e).TidyAt d others s := by
  refine (tidyAt_quietly isSteady_slot s).bind ?_
  split
  · exact tidyAt_unload hd he _
  · exact tidyAt_pure _ _

end Engines

end Watched

section Compiles

variable {d : Depot} {e : Engine τ IsolatedEntry} {s : EngineState τ IsolatedEntry} {job : CompileJob}
  {staged : Path} {errors : List ProgramError} {address : String} {t now : FileTree}

/-- What a store does for an address that is clear of the copies leaves them alone. -/
theorem Depot.Apart.spared_of_reworked (hd : d.Apart) (haddress : isAddress address = true)
    (hclear : d.Clears address) (ht : d.Stands t) (h : d.store.Reworked address t now) :
    d.directory.Spared t now := by
  obtain ⟨hwd, hdirectory⟩ := ht
  have hstaging := hd.staging
  have hbelow := hclear haddress
  rw [Depot.place] at hdirectory hstaging
  rw [← hwd] at hdirectory hstaging hbelow
  exact h.spared haddress hdirectory hstaging hbelow

/-- Staging leaves the copies alone. -/
theorem Depot.Apart.spared_stage (hd : d.Apart) (he : d.Serves e) (hclear : d.Clears address)
    {w : World τ} (hw : d.Stands w.host.files) :
    d.directory.Spared w.host.files ((Disk.plain.stage e address).run w).2.host.files := by
  by_cases haddress : isAddress address = true
  · have hundisturbed := Disk.undisturbed_stage .plain e address w
    rw [he.store] at hundisturbed
    exact hd.spared_of_reworked haddress hclear hw (.of_undisturbed hundisturbed)
  -- Without an address only the directory around the staging directories is made.
  · have hcleaned : d.directory.Spared w.host.files
        ((Disk.plain.task (e.environment.store.cleanStaging address)).run w).2.host.files :=
      ArtifactStore.spared_inStagingDirectory_of_not haddress _ _ w.host.files
    have hensured : ∀ v : World τ, d.Stands v.host.files → d.directory.Spared v.host.files
        ((Disk.plain.task e.environment.store.ensureDirectories).run v).2.host.files := by
      intro v hv
      have hstaging := hd.staging
      rw [Depot.place, ← hv.workingDirectory, ← he.store] at hstaging
      rw [Disk.task_plain, Act.task, Act.files_run_files]
      exact ArtifactStore.spared_ensureDirectories hstaging
    have hfound : ∀ (n : Nat) (v : World τ), d.directory.Spared v.host.files
        ((Disk.plain.task (e.environment.store.stagingPath address n)).run v).2.host.files :=
      fun _ v => ArtifactStore.spared_inStagingDirectory_of_not haddress _ _ v.host.files
    rw [Disk.stage, Act.run_bind, Act.run_bind]
    have hmade := hcleaned.trans (hensured _ (hw.spared hcleaned))
    split
    · exact hmade
    · rw [Disk.files_freshTask]
      exact hmade.trans (hfound _ _)

theorem Engine.world_failCompile (errors : List ProgramError) (s : EngineState τ IsolatedEntry) :
    ((Engine.failCompile errors).run s).2.world = s.world := rfl

theorem Followed.spared_invokeCompiler (he : d.Serves e)
    (hstaged : d.store.IsStaged job.address staged) (s : EngineState τ IsolatedEntry) :
    d.directory.Spared s.world.host.files
      ((invokeCompiler e job staged).act.run s).2.world.host.files := by
  have hcompiled := he.compiler (e.compileRequest job
    (e.environment.template.compose job.source job.trigger) staged) s.world hstaged
  rw [invokeCompiler, act_bind, EngineAct.run_bind]
  split
  · exact hcompiled
  · rw [act_bind, EngineAct.run_bind]
    change d.directory.Spared _ ((List.forM _ _ : Followed τ IsolatedEntry Unit).act.run
      _).2.world.host.files
    rw [world_warnings]
    exact hcompiled

theorem Followed.spared_abandon (hd : d.Apart) (he : d.Serves e) (hclear : d.Clears job.address)
    (hstaged : d.store.IsStaged job.address staged) (hs : d.Stands s.world.host.files) :
    d.directory.Spared s.world.host.files
      ((abandon .plain e staged errors).act.run s).2.world.host.files := by
  have hundisturbed : e.environment.store.Undisturbed job.address s.world.host.files
      ((abandon .plain e staged errors).act.run s).2.world.host.files :=
    undisturbed_abandon (he.store ▸ hd.wellNamed) (he.store ▸ hstaged) s
  rw [he.store] at hundisturbed
  exact hd.spared_of_reworked hstaged.1 hclear hs (.of_undisturbed hundisturbed)

/-- Whether what was staged is committed or not, the copies are left alone. -/
theorem Followed.spared_settle (hd : d.Apart) (he : d.Serves e) (hclear : d.Clears job.address)
    (hstaged : d.store.IsStaged job.address staged) (hs : d.Stands s.world.host.files) :
    d.directory.Spared s.world.host.files
      ((settle .plain e job staged errors).act.run s).2.world.host.files := by
  rw [settle]
  split
  · exact spared_abandon hd he hclear hstaged hs
  · have hcommit : d.directory.Spared s.world.host.files
        ((committing .plain e.environment.store staged job.address).act.run s).2.world.host.files := by
      rw [he.store]
      exact hd.spared_of_reworked hstaged.1 hclear hs
        (ArtifactStore.reworked_commit hd.wellNamed hstaged s.world.host.files)
    rw [act_bind, EngineAct.run_bind]
    split
    · exact hcommit.trans (spared_abandon hd he hclear hstaged (hs.spared hcommit))
    · exact hcommit

theorem Followed.spared_proceed (hd : d.Apart) (he : d.Serves e) (hclear : d.Clears job.address)
    (hs : d.Stands s.world.host.files) :
    d.directory.Spared s.world.host.files
      ((proceed .plain e job).act.run s).2.world.host.files := by
  have hstage : d.directory.Spared s.world.host.files
      ((EngineAct.inWorld (Disk.plain.stage e job.address)).run s).2.world.host.files := by
    rw [EngineAct.world_inWorld]
    exact hd.spared_stage he hclear hs
  rw [proceed, act_bind, EngineAct.run_bind, act_quietly]
  split
  · rw [act_quietly, Engine.world_failCompile]
    exact hstage
  · next staged hanswer =>
    rw [EngineAct.run_inWorld] at hanswer
    have hstaged := Disk.isStaged_of_stage hanswer
    rw [he.store] at hstaged
    rw [act_bind, EngineAct.run_bind]
    have hcompiled := hstage.trans (spared_invokeCompiler he hstaged _)
    refine hcompiled.trans ?_
    exact spared_settle hd he hclear hstaged (hs.spared hcompiled)

/-- A compile changes none of the copies. -/
theorem steady_compile (hd : d.Apart) (he : d.Serves e) (hclear : d.Clears s.program.address)
    (hs : d.Stands s.world.host.files) : s.Steady d (e.compile.run s).2 := by
  obtain ⟨houtcome, -⟩ := Followed.outcome_compile .plain e s
  have hspared := @Followed.spared_proceed τ d e s.begun s.job hd he hclear hs
  rw [← Followed.run_compile] at hspared
  rw [Followed.act_compile] at houtcome hspared
  refine ⟨hspared, ?_, houtcome.registry, by rw [houtcome.slot], by rw [houtcome.slot]⟩
  by_cases hok : (e.compile.run s).1 = []
  · rw [houtcome.done hok]
  · rw [houtcome.failed hok]

end Compiles

/-- Whatever an engine is told to do, it keeps the copies of others and its own on the shelf. -/
theorem Order.tidyAt {d : Depot} {e : Engine τ IsolatedEntry} {others : UnitCopy → Prop}
    {s : EngineState τ IsolatedEntry} (hd : d.Apart) (he : d.Serves e)
    (hclear : d.Clears s.program.address) (order : Order) :
    (order.watched e).TidyAt d others s := by
  cases order with
  | load => exact (Watched.tidyAt_load hd he s).bind (Watched.tidyAt_pure _ _)
  | unload => exact Watched.tidyAt_unload hd he s
  | compile =>
      refine Watched.TidyAt.bind (fun hs _ => ?_) (Watched.tidyAt_pure _ _)
      exact hs.steady (steady_compile hd he hclear hs.stands)
  | setup => exact (Watched.tidyAt_setup hd he s).bind (Watched.tidyAt_pure _ _)
  | run options => exact (Watched.tidyAt_run hd he options s).bind (Watched.tidyAt_pure _ _)
  | reset => exact (Watched.tidyAt_reset he s).bind (Watched.tidyAt_pure _ _)

end Automation
