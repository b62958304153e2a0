import Automation.Proofs.CommandLine.Endings
import Automation.Proofs.Engine.Housekeeping

/-
The engine of a command.

Before an engine is built the configuration and the sources are read, which leaves the site alone but for
its world.  What is built then is the only engine there is, in an environment that nobody else holds and
whose registry claims the addresses of its contexts.  Nothing is loaded yet, and nothing is live.
-/

namespace Automation

/-- The claims of the contexts of an environment. -/
def Environment.claims (e : Environment) : Claims :=
  ⟨e.config.shadowDir.child claimsName, e.config.shadowDir, e.snapshotDir.fileName?.getD ""⟩

/-- An environment starts with a registry that makes its claims. -/
theorem Environment.start_registry (config : EngineConfig) (processes : ProcessTable) (n : Nat) :
    FileTask.Meets (fun _ => True) (start config processes n)
      (fun started _ => started.2.1 = .withClaims started.1.claims) fun _ => True :=
  meets_start (fun _ _ => trivial) (FileTask.meets_trivial _) (FileTask.meets_trivial _)
    ⟨fun _ _ => trivial⟩ (FileTask.meets_trivial _) (fun _ => ⟨fun _ _ => trivial⟩)
    (fun _ _ _ _ => rfl) fun _ => ⟨fun _ _ => trivial⟩

namespace CommandLine

variable {τ ε α β : Type}

/-- What succeeds has succeeded in its first part, and then in the rest. -/
theorem of_bind_ok {work : Work τ ε α} {f : α → Work τ ε β} {s now : Site τ ε} {value : β}
    (h : (work >>= f).run.run s = (.ok value, now)) :
    ∃ first between, work.run.run s = (.ok first, between) ∧
      (f first).run.run between = (.ok value, now) := by
  rw [ExceptT.run_bind, StateT.run_bind] at h
  generalize work.run.run s = done at h ⊢
  obtain ⟨_ | first, between⟩ := done
  · cases h
  · exact ⟨first, between, rfl, h⟩

theorem run_bind_of_ok {work : Work τ ε α} {f : α → Work τ ε β} {s between : Site τ ε} {first : α}
    (h : work.run.run s = (.ok first, between)) :
    (work >>= f).run.run s = (f first).run.run between := by
  rw [ExceptT.run_bind, StateT.run_bind, h]
  rfl

/-- An act at a site does not fail. -/
theorem run_lift (act : SiteAct τ ε α) (s : Site τ ε) :
    (ExceptT.lift act : Work τ ε α).run.run s = (.ok (act.run s).1, (act.run s).2) := rfl

/-- Nothing but the world is changed. -/
def Minds (work : Work τ ε α) : Prop :=
  ∀ s : Site τ ε, ∃ w, (work.run.run s).2 = { s with world := w }

theorem minds_task (t : FileTask α) : Minds (task t : Work τ ε α) :=
  fun s => ⟨((Act.task t).run s.world).2, rfl⟩

theorem minds_pure (value : α) : Minds (pure value : Work τ ε α) :=
  fun s => ⟨s.world, rfl⟩

theorem Minds.bind {work : Work τ ε α} {f : α → Work τ ε β} (h : Minds work)
    (hf : ∀ value, Minds (f value)) : Minds (work >>= f) := by
  intro s
  obtain ⟨w, hw⟩ := h s
  rw [ExceptT.run_bind, StateT.run_bind]
  generalize work.run.run s = done at hw ⊢
  obtain ⟨answer, between⟩ := done
  obtain rfl : between = { s with world := w } := hw
  cases answer with
  | error f => exact ⟨w, rfl⟩
  | ok value => exact hf value { s with world := w }

theorem minds_programOf (arguments : ProgramArguments) :
    Minds (programOf arguments : Work τ ε ProgramBlock) := by
  refine (minds_task _).bind fun source => Minds.bind ?_ fun trigger => minds_pure _
  cases arguments.trigger with
  | none => exact minds_pure _
  | some path => exact (minds_task _).bind fun text => minds_pure _

theorem address_of_programOf {arguments : ProgramArguments} {s now : Site τ ε} {p : ProgramBlock}
    (h : (programOf arguments).run.run s = (.ok p, now)) : p.address = arguments.address := by
  obtain ⟨source, read, -, h⟩ := of_bind_ok h
  obtain ⟨trigger, all, -, h⟩ := of_bind_ok h
  cases h
  rfl

/-- An engine of some equipment for an address has just been built. -/
structure IsNew (equipment : Equipment τ ε) (address : String) (record : EngineRecord τ ε)
    (shared : SharedEnvironment) (p : ProgramBlock) : Prop where
  slot : record.slot = .unloaded
  loader : ∃ directory extension, record.loader = equipment.loader directory extension
  registry : shared.registry = .withClaims shared.environment.claims
  address : p.address = address

/-- Where an engine is new, nothing is live. -/
theorem IsNew.not_live {equipment : Equipment τ ε} {address : String} {record : EngineRecord τ ε}
    {shared : SharedEnvironment} {p : ProgramBlock} (h : IsNew equipment address record shared p)
    (other : String) : shared.registry.liveGeneration other = none := by
  rw [h.registry]
  rfl

/-- Whoever builds an engine has a new one, on its seat. -/
theorem buildEngine_ok {equipment : Equipment τ ε} {config : EngineConfig}
    {arguments : ProgramArguments} {w : World τ} {engine : Nat} {built : Site τ ε}
    (h : (buildEngine equipment config arguments).run.run (Site.ofWorld w) = (.ok engine, built)) :
    ∃ record shared p, built.seat? engine = some (record, shared, p) ∧
      IsNew equipment arguments.address record shared p := by
  obtain ⟨p, read, hp, h⟩ := of_bind_ok h
  obtain ⟨w', hread⟩ := minds_programOf arguments (Site.ofWorld w)
  obtain rfl : read = Site.ofWorld w' := (congrArg Prod.snd hp).symm.trans hread
  obtain ⟨⟨id, environment⟩, started, hstart, h⟩ := of_bind_ok h
  rcases Site.startEnvironment_run config (Site.ofWorld w' : Site τ ε) with
    ⟨f, t, -, hrun⟩ | ⟨found, registry, next, t, hok, hrun⟩
  · cases hrun.symm.trans hstart
  have hregistry := (Environment.start_registry config w'.host.processes w'.host.fresh).run
    w'.host.files trivial
  have hok' : FileAction.run (Environment.start config w'.host.processes w'.host.fresh).run
      w'.host.files = (.ok (found, registry, next), t) := hok
  rw [hok'] at hregistry
  have hbegun := hrun.symm.trans hstart
  obtain ⟨rfl, rfl⟩ : 0 = id ∧ found = environment :=
    Prod.mk.inj (Except.ok.inj (congrArg Prod.fst hbegun))
  obtain rfl := congrArg Prod.snd hbegun
  let record : EngineRecord τ ε := ⟨0, 1, equipment.compiler config.compiler,
    equipment.loader found.snapshotDir config.artifactExtension, .unloaded, []⟩
  let site (isHeld : Bool) : Site τ ε := ⟨(w'.withFiles t).withFresh next,
    [(0, ⟨found, registry, isHeld⟩)], [(1, p)], [(2, record)], 3⟩
  have hbuilt : (Except.ok 2, ((SiteAct.giveUpEnvironment 0).run (site true)).2) =
      (Except.ok engine, built) := h
  -- The command gives up its own hold on the environment, which the engine goes on using.
  have hgiven : ((SiteAct.giveUpEnvironment 0).run (site true)).2 = site false := by
    have hheld : Table.get? 0 (site true).environments = some ⟨found, registry, true⟩ := rfl
    rw [Site.giveUpEnvironment_run hheld]
    change ((SiteAct.releaseUnused 0).run (site false)).2 = site false
    rcases Site.releaseUnused_outcomes 0 (site false) with hkept | ⟨hunused, -⟩
    · exact hkept
    · cases hunused
  rw [hgiven] at hbuilt
  cases hbuilt
  exact ⟨record, _, p, rfl, rfl, ⟨_, _, rfl⟩, hregistry, address_of_programOf hp⟩

/-- Read the configuration and the sources, and build an engine. -/
def prepare (equipment : Equipment τ ε) (path : Path) (arguments : ProgramArguments) :
    Work τ ε Nat := do
  let config ← task (EngineConfig.load path)
  buildEngine equipment (rooted config path) arguments

section Prepared

variable {equipment : Equipment τ ε} {path : Path} {arguments : ProgramArguments} {w : World τ}
  {engine : Nat} {built : Site τ ε} {record : EngineRecord τ ε} {shared : SharedEnvironment}
  {p : ProgramBlock}

theorem prepare_ok
    (h : (prepare equipment path arguments).run.run (Site.ofWorld w) = (.ok engine, built)) :
    ∃ record shared p, built.seat? engine = some (record, shared, p) ∧
      IsNew equipment arguments.address record shared p := by
  obtain ⟨config, read, hconfig, h⟩ := of_bind_ok h
  obtain ⟨w', hread⟩ := minds_task (EngineConfig.load path) (Site.ofWorld w : Site τ ε)
  obtain rfl : read = Site.ofWorld w' := (congrArg Prod.snd hconfig).symm.trans hread
  exact buildEngine_ok h

/-- An engine that has worked keeps its seat, and goes on from where it was. -/
theorem seat?_withEngineState (s : Site τ ε) (id : Nat) (shared : SharedEnvironment)
    (record : EngineRecord τ ε) (after : EngineState τ ε) :
    (s.withEngineState id shared record after).seat? id =
      some ({ record with slot := after.slot, notices := after.notices },
        { shared with registry := after.registry }, after.program) := by
  rw [Site.seat?_eq_some_iff]
  simp [Site.withEngineState, Table.get?_put]

/-- An engine that is given up is disposed of, and after that nothing new comes to the files. -/
theorem thins_removeEngine {s : Site τ ε} {id : Nat}
    (hseat : s.seat? id = some (record, shared, p)) :
    ((Site.engineOf shared record).dispose.run
        (s.engineState shared p record)).2.world.host.files.Thins
      ((SiteAct.removeEngine id).run s).2.world.host.files := by
  obtain ⟨hrecord, -, -⟩ := Site.seat?_eq_some_iff.mp hseat
  rw [Site.removeEngine_run hrecord, Site.withEngine_of_seat _ hseat]
  dsimp only
  rcases Site.releaseUnused_outcomes record.environment _ with hrun | ⟨-, found, -, hrun⟩
  · rw [hrun]
    exact .refl _
  · rw [hrun]
    exact found.environment.thins_release _

/-- Let an engine that is built work once, and give it up. -/
def conclude (work : Engine τ ε → EngineAct τ ε Report) (engine : Nat) : Work τ ε Report := do
  let report ← ExceptT.lift (SiteAct.withEngine engine work)
  ExceptT.lift (SiteAct.removeEngine engine)
  pure (report.getD ⟨.notExecuted, "", ""⟩)

theorem perform_run (equipment : Equipment τ ε) (path : Path) (arguments : ProgramArguments)
    (options : String) (withSetup : Bool) :
    perform equipment ⟨path, .run arguments options withSetup⟩ =
      prepare equipment path arguments >>= conclude fun e => runProgram e options withSetup := by
  simp only [perform, useEngine, prepare, bind_assoc]
  rfl

theorem run_conclude {s : Site τ ε} (hseat : s.seat? engine = some (record, shared, p))
    (work : Engine τ ε → EngineAct τ ε Report) :
    (conclude work engine).run.run s =
      let worked := (work (Site.engineOf shared record)).run (s.engineState shared p record)
      (.ok worked.1,
        ((SiteAct.removeEngine engine).run (s.withEngineState engine shared record worked.2)).2) := by
  rw [conclude, run_bind_of_ok (run_lift _ _), Site.withEngine_run _ hseat]
  rfl

/-- What a command that runs a program does once its engine is built: the engine serves, and what the
command reports is what the engine has reported.  After that nothing new comes to the files. -/
theorem execute_run
    (hbuilt : (prepare equipment path arguments).run.run (Site.ofWorld w) = (.ok engine, built))
    (hseat : built.seat? engine = some (record, shared, p)) (options : String) (withSetup : Bool) :
    let served := (Watched.serve (Site.engineOf shared record) options withSetup).act.run
      (built.engineState shared p record)
    let ran := (execute equipment ⟨path, .run arguments options withSetup⟩).run w
    ran.1 = served.1 ∧ served.2.world.host.files.Thins ran.2.host.files := by
  intro served ran
  have hperform := run_conclude hseat fun e => runProgram e options withSetup
  rw [← run_bind_of_ok hbuilt, ← perform_run] at hperform
  have hran : ran = execute equipment ⟨path, .run arguments options withSetup⟩ w := rfl
  have hserved : served = _ := Watched.act_serve_run (Site.engineOf shared record) options withSetup
    (built.engineState shared p record)
  rw [execute, hperform] at hran
  rw [Watched.act_runProgram] at hserved
  rw [hran, hserved]
  exact ⟨rfl, thins_removeEngine (seat?_withEngineState built engine shared record _)⟩

end Prepared

end CommandLine

end Automation
