import Automation.Compiler.Command
import Automation.Compiler.Scripted
import Automation.Engine.Compile
import Automation.Proofs.Engine.Watched
import Automation.Proofs.Files.Sparing
import Automation.Proofs.Publishing.Staging
import Automation.Proofs.Starting
import Automation.Surroundings

/-
Compiles under observation.

A compile is told here once more, with the moments when the compiler is ordered to work, when a
warning is published and when a commit is tried, and for a disk that may refuse any step on files.
On a disk that does what the files allow, forgetting the moments gives back the compile itself.

All through a compile the program stays disabled and the engine keeps what it has loaded.  When it
fails, everything it did to the files was staging.
-/

namespace Automation

open FileAction

/-- What carries out tasks on the files of a host.  It may refuse any step for reasons of its
own. -/
structure Disk (τ : Type) where
  /-- The steps of a task, its result and the files it leaves. -/
  carry {α : Type} : FileTask α → World τ → List FileEvent × Except Failure α × FileTree
  history {α : Type} (task : FileTask α) (w : World τ) :
    History task.run w.host.files (carry task w).1 (carry task w).2.1 (carry task w).2.2

namespace Disk

variable {τ ε α : Type}

/-- The disk that refuses a step only for what the files are. -/
def plain : Disk τ where
  carry task w := (FileAction.steps task.run w.host.files, FileAction.run task.run w.host.files)
  history task w := history_run task.run w.host.files

/-- The steps of a task. -/
def steps (d : Disk τ) (task : FileTask α) (w : World τ) : List FileEvent := (d.carry task w).1

/-- A task on the files of the host. -/
def task (d : Disk τ) (t : FileTask α) : Act τ (Except Failure α) := fun w =>
  ((d.carry t w).2.1, w.withFiles (d.carry t w).2.2)

/-- A task that uses fresh names. -/
def freshTask (d : Disk τ) (t : Nat → FileTask (α × Nat)) : Act τ (Except Failure α) := fun w =>
  match (d.task (t w.host.fresh)).run w with
  | (.ok (value, next), w) => (.ok value, w.withFresh next)
  | (.error f, w) => (.error f, w)

/-- Clean the staging area of an address and find a fresh path in it. -/
def stage (d : Disk τ) (e : Engine τ ε) (address : String) : Act τ (Except Failure Path) := do
  let store := e.environment.store
  let _ ← d.task (store.cleanStaging address)
  match ← d.task store.ensureDirectories with
  | .error f => pure (.error f)
  | .ok _ => d.freshTask (store.stagingPath address)

@[simp] theorem task_plain (t : FileTask α) : (plain : Disk τ).task t = Act.task t := rfl

@[simp] theorem freshTask_plain (t : Nat → FileTask (α × Nat)) :
    (plain : Disk τ).freshTask t = Act.freshTask t := rfl

@[simp] theorem stage_plain (e : Engine τ ε) (address : String) :
    plain.stage e address = e.stage address := rfl

end Disk

/-- What others learn of a compile. -/
inductive CompileDeed where
  /-- The compiler is ordered to work. -/
  | ordered (request : CompileRequest)
  /-- A warning is published. -/
  | warned (notice : Notice)
  /-- What was staged is committed, in these steps. -/
  | committed (staged : Path) (steps : List FileEvent)

/-- A deed, and all that the engine works on just before it. -/
structure CompileMoment (τ ε : Type) where
  deed : CompileDeed
  state : EngineState τ ε

/-- An act of an engine, and the moments of a compile that it passes through. -/
structure Followed (τ ε α : Type) where
  act : EngineAct τ ε α
  moments : EngineState τ ε → List (CompileMoment τ ε)

namespace Followed

open EngineAct

variable {τ ε α β : Type}

instance : Monad (Followed τ ε) where
  pure value := ⟨pure value, fun _ => []⟩
  bind told f :=
    { act := told.act >>= fun value => (f value).act
      moments := fun s =>
        told.moments s ++ (f (told.act.run s).1).moments (told.act.run s).2 }

@[simp] theorem act_pure (value : α) :
    (pure value : Followed τ ε α).act = (pure value : EngineAct τ ε α) := rfl

@[simp] theorem act_bind (told : Followed τ ε α) (f : α → Followed τ ε β) :
    (told >>= f).act = told.act >>= fun value => (f value).act := rfl

@[simp] theorem moments_pure (value : α) (s : EngineState τ ε) :
    (pure value : Followed τ ε α).moments s = [] := rfl

@[simp] theorem moments_bind (told : Followed τ ε α) (f : α → Followed τ ε β)
    (s : EngineState τ ε) :
    (told >>= f).moments s =
      told.moments s ++ (f (told.act.run s).1).moments (told.act.run s).2 := rfl

/-- An act without deeds. -/
def quietly (act : EngineAct τ ε α) : Followed τ ε α := ⟨act, fun _ => []⟩

/-- To have the compiler work is a deed. -/
def ordering (request : CompileRequest) (compiler : Compiler τ) :
    Followed τ ε (Except Failure (List RawDiagnostic)) where
  act := inWorld (compiler request)
  moments s := [⟨.ordered request, s⟩]

/-- To publish a warning is a deed. -/
def warning (notice : Notice) : Followed τ ε Unit where
  act := notify notice
  moments s := [⟨.warned notice, s⟩]

/-- To commit is a deed, whatever comes of it. -/
def committing (d : Disk τ) (store : ArtifactStore) (staged : Path) (address : String) :
    Followed τ ε (Except Failure Unit) where
  act := inWorld (d.task (store.commit staged address))
  moments s := [⟨.committed staged (d.steps (store.commit staged address) s.world), s⟩]

@[simp] theorem act_quietly (act : EngineAct τ ε α) : (quietly act).act = act := rfl

@[simp] theorem moments_quietly (act : EngineAct τ ε α) (s : EngineState τ ε) :
    (quietly act).moments s = [] := rfl

theorem act_forM (values : List α) (f : α → Followed τ ε Unit) :
    (values.forM f).act = values.forM fun value => (f value).act := by
  induction values with
  | nil => rfl
  | cons value rest ih =>
      change ((f value).act >>= fun _ => (rest.forM f).act) = _
      rw [ih]
      rfl

variable (d : Disk τ) (e : Engine τ ε)

/-- Run the compiler and give notice of its warnings. -/
def invokeCompiler (job : CompileJob) (staged : Path) : Followed τ ε (List ProgramError) := do
  let composition := e.environment.template.compose job.source job.trigger
  let offsets := LineOffsets.ofComposition composition
  match ← ordering (e.compileRequest job composition staged) e.compiler with
  | .error f => pure (Engine.failureErrors f)
  | .ok ds =>
      (offsets.warnings ds).forM fun w => warning (Engine.warningNotice job.address w)
      pure (offsets.errors ds)

/-- Discard what was staged and end the compile with errors. -/
def abandon (staged : Path) (errors : List ProgramError) : Followed τ ε (List ProgramError) := do
  let _ ← quietly (inWorld (d.task (e.environment.store.discard staged)))
  quietly (Engine.failCompile errors)

/-- Commit what was staged, unless there are errors. -/
def settle (job : CompileJob) (staged : Path) (errors : List ProgramError) :
    Followed τ ε (List ProgramError) := do
  if !errors.isEmpty then abandon d e staged errors
  else
    match ← committing d e.environment.store staged job.address with
    | .error f => abandon d e staged (Engine.failureErrors (f.within .commitArtifact))
    | .ok _ =>
        quietly (editProgram fun p =>
          { p with lastCompileErrors := [], isEnabled := p.isEnabled || job.wasEnabled })
        pure []

/-- Compile what has been taken from the program, and commit it. -/
def proceed (job : CompileJob) : Followed τ ε (List ProgramError) := do
  match ← quietly (inWorld (d.stage e job.address)) with
  | .error f => quietly (Engine.failCompile (Engine.failureErrors f))
  | .ok staged =>
      let errors ← invokeCompiler e job staged
      settle d e job staged errors

def compile : Followed τ ε (List ProgramError) := do
  let job ← quietly Engine.beginCompile
  proceed d e job

theorem act_invokeCompiler (job : CompileJob) (staged : Path) :
    (invokeCompiler e job staged).act = e.invokeCompiler job staged := by
  simp only [invokeCompiler, Engine.invokeCompiler, act_bind]
  congr 1
  funext answer
  cases answer with
  | error f => rfl
  | ok ds =>
      simp only [act_bind, act_forM]
      rfl

theorem act_settle (job : CompileJob) (staged : Path) (errors : List ProgramError) :
    (settle .plain e job staged errors).act = e.settle job staged errors := by
  rw [settle, Engine.settle]
  split
  · rfl
  · simp only [act_bind]
    congr 1
    funext answer
    cases answer <;> rfl

theorem act_compile : (compile .plain e).act = e.compile := by
  simp only [compile, proceed, Engine.compile, act_bind, act_quietly]
  congr 1
  funext job
  congr 1
  funext answer
  cases answer with
  | error f => rfl
  | ok staged => simp only [act_bind, act_invokeCompiler, act_settle]

end Followed

/-- The program of a compile that has begun: it is disabled, and nothing is wrong with it yet. -/
def EngineState.begun {τ ε : Type} (s : EngineState τ ε) : EngineState τ ε :=
  { s with program := { s.program with scriptErrors := "", isEnabled := false } }

/-- What a compile takes from the program. -/
def EngineState.job {τ ε : Type} (s : EngineState τ ε) : CompileJob :=
  ⟨s.program.address, s.program.isEnabled, s.program.scriptSource, s.program.scriptSetup⟩

/-- Two states of an engine differ at most in the world and in the notices given. -/
structure EngineState.SameEngine {τ ε : Type} (s now : EngineState τ ε) : Prop where
  program : now.program = s.program
  slot : now.slot = s.slot
  registry : now.registry = s.registry

/-- What a compile makes of the engine: without errors the program is as enabled as before, with
errors it is disabled and has them.  Nothing else of the program has changed, and nothing of what is
loaded, bound and live. -/
structure CompileOutcome {τ ε : Type} (s : EngineState τ ε) (errors : List ProgramError)
    (now : EngineState τ ε) : Prop where
  slot : now.slot = s.slot
  registry : now.registry = s.registry
  done : errors = [] →
    now.program = { s.program with scriptErrors := "", lastCompileErrors := [] }
  failed : errors ≠ [] → now.program =
    { s.program with scriptErrors := "", isEnabled := false, lastCompileErrors := errors }

namespace Followed

open EngineAct

section Program

variable {τ ε α β : Type} {s now : EngineState τ ε} {d : Disk τ} {e : Engine τ ε}
  {job : CompileJob} {staged : Path} {errors : List ProgramError}

/-- The act leaves the engine alone, all the way. -/
def LeavesEngine (told : Followed τ ε α) : Prop :=
  ∀ s, s.SameEngine (told.act.run s).2 ∧ ∀ moment ∈ told.moments s, s.SameEngine moment.state

theorem leavesEngine_pure (value : α) : (pure value : Followed τ ε α).LeavesEngine :=
  fun _ => ⟨⟨rfl, rfl, rfl⟩, by simp⟩

theorem leavesEngine_inWorld (act : Act τ α) :
    (quietly (inWorld act) : Followed τ ε α).LeavesEngine :=
  fun _ => ⟨⟨rfl, rfl, rfl⟩, by simp⟩

theorem leavesEngine_warning (notice : Notice) :
    (warning notice : Followed τ ε Unit).LeavesEngine :=
  fun _ => ⟨⟨rfl, rfl, rfl⟩, List.forall_mem_singleton.mpr ⟨rfl, rfl, rfl⟩⟩

theorem leavesEngine_ordering (request : CompileRequest) (compiler : Compiler τ) :
    (ordering request compiler : Followed τ ε _).LeavesEngine :=
  fun _ => ⟨⟨rfl, rfl, rfl⟩, List.forall_mem_singleton.mpr ⟨rfl, rfl, rfl⟩⟩

theorem leavesEngine_committing (store : ArtifactStore) (address : String) :
    (committing d store staged address : Followed τ ε _).LeavesEngine :=
  fun _ => ⟨⟨rfl, rfl, rfl⟩, List.forall_mem_singleton.mpr ⟨rfl, rfl, rfl⟩⟩

theorem sameEngine_trans {later : EngineState τ ε} (h : s.SameEngine now)
    (h' : now.SameEngine later) : s.SameEngine later :=
  ⟨h'.program.trans h.program, h'.slot.trans h.slot, h'.registry.trans h.registry⟩

theorem LeavesEngine.bind {told : Followed τ ε α} {f : α → Followed τ ε β}
    (h : told.LeavesEngine) (hf : ∀ value, (f value).LeavesEngine) :
    (told >>= f).LeavesEngine := by
  intro s
  obtain ⟨hfirst, hmoments⟩ := h s
  obtain ⟨hsecond, hmoments'⟩ := hf (told.act.run s).1 (told.act.run s).2
  refine ⟨sameEngine_trans hfirst hsecond, fun moment hmoment => ?_⟩
  rcases List.mem_append.mp hmoment with hmoment | hmoment
  · exact hmoments moment hmoment
  · exact sameEngine_trans hfirst (hmoments' moment hmoment)

theorem leavesEngine_forM {values : List α} {f : α → Followed τ ε Unit}
    (h : ∀ value, (f value).LeavesEngine) : (values.forM f).LeavesEngine := by
  induction values with
  | nil => exact leavesEngine_pure ()
  | cons value rest ih => exact (h value).bind fun _ => ih

theorem leavesEngine_invokeCompiler (e : Engine τ ε) (job : CompileJob) (staged : Path) :
    (invokeCompiler e job staged).LeavesEngine := by
  refine (leavesEngine_ordering _ _).bind fun answer => ?_
  cases answer with
  | error f => exact leavesEngine_pure _
  | ok ds => exact (leavesEngine_forM fun _ => leavesEngine_warning _).bind fun _ =>
      leavesEngine_pure _

/-- However a compile that has begun goes on, this act ends it well, and whoever learns of it on the
way finds the program disabled. -/
def Ends (s : EngineState τ ε) (told : Followed τ ε (List ProgramError)) : Prop :=
  ∀ now, s.begun.SameEngine now → CompileOutcome s (told.act.run now).1 (told.act.run now).2 ∧
    ∀ moment ∈ told.moments now, s.begun.SameEngine moment.state

theorem LeavesEngine.ends {told : Followed τ ε α} {f : α → Followed τ ε (List ProgramError)}
    (h : told.LeavesEngine) (hf : ∀ value, (f value).Ends s) : (told >>= f).Ends s := by
  intro now hnow
  obtain ⟨hfirst, hmoments⟩ := h now
  obtain ⟨houtcome, hmoments'⟩ := hf (told.act.run now).1 _ (sameEngine_trans hnow hfirst)
  refine ⟨houtcome, fun moment hmoment => ?_⟩
  rcases List.mem_append.mp hmoment with hmoment | hmoment
  · exact sameEngine_trans hnow (hmoments moment hmoment)
  · exact hmoments' moment hmoment

theorem ends_failCompile (hne : errors ≠ []) :
    (quietly (Engine.failCompile errors) : Followed τ ε _).Ends s := by
  refine fun now hnow => ⟨⟨hnow.slot, hnow.registry, fun hnil => absurd hnil hne, fun _ => ?_⟩,
    by simp⟩
  change { now.program with lastCompileErrors := errors } = _
  rw [hnow.program]
  rfl

theorem ends_abandon (hne : errors ≠ []) : (abandon d e staged errors).Ends s :=
  (leavesEngine_inWorld _).ends fun _ => ends_failCompile hne

/-- A compile that went through enables the program if it was enabled before. -/
theorem ends_restored (hjob : job.wasEnabled = s.program.isEnabled) :
    (do
      quietly (editProgram fun p =>
        { p with lastCompileErrors := [], isEnabled := p.isEnabled || job.wasEnabled })
      pure [] : Followed τ ε (List ProgramError)).Ends s := by
  refine fun now hnow =>
    ⟨⟨hnow.slot, hnow.registry, fun _ => ?_, fun hne => absurd rfl hne⟩, by simp⟩
  change { now.program with
    lastCompileErrors := [], isEnabled := now.program.isEnabled || job.wasEnabled } = _
  rw [hnow.program, hjob]
  rfl

theorem failureErrors_ne_nil (f : Failure) : Engine.failureErrors f ≠ [] :=
  List.cons_ne_nil _ _

theorem ends_settle (hjob : job.wasEnabled = s.program.isEnabled) :
    (settle d e job staged errors).Ends s := by
  rw [settle]
  split
  · next hne => exact ends_abandon (by simpa using hne)
  · refine (leavesEngine_committing _ _).ends fun answer => ?_
    cases answer with
    | error f => exact ends_abandon (failureErrors_ne_nil _)
    | ok _ => exact ends_restored hjob

theorem ends_proceed (hjob : job.wasEnabled = s.program.isEnabled) :
    (proceed d e job).Ends s := by
  refine (leavesEngine_inWorld _).ends fun answer => ?_
  cases answer with
  | error f => exact ends_failCompile (failureErrors_ne_nil f)
  | ok staged => exact (leavesEngine_invokeCompiler e job staged).ends fun _ => ends_settle hjob

/-- A compile begins by disabling the program, and then goes on to one of its ends. -/
theorem run_compile (d : Disk τ) (e : Engine τ ε) (s : EngineState τ ε) :
    (compile d e).act.run s = (proceed d e s.job).act.run s.begun := rfl

theorem moments_compile (d : Disk τ) (e : Engine τ ε) (s : EngineState τ ε) :
    (compile d e).moments s = (proceed d e s.job).moments s.begun := rfl

theorem outcome_compile (d : Disk τ) (e : Engine τ ε) (s : EngineState τ ε) :
    CompileOutcome s ((compile d e).act.run s).1 ((compile d e).act.run s).2 ∧
      ∀ moment ∈ (compile d e).moments s, s.begun.SameEngine moment.state := by
  rw [run_compile, moments_compile]
  exact ends_proceed rfl s.begun ⟨rfl, rfl, rfl⟩

end Program

end Followed

/-- Whatever a compile commits, no step that undoes another was refused for reasons of the system's
own: it succeeded, or came out as the files alone decide. -/
def CompileDeed.Undoes : CompileDeed → Prop
  | .committed staged steps => ∀ event ∈ steps, ArtifactStore.IsUndo (ArtifactStore.asidePath staged) event.op →
      event.outcome = .ok () ∨ event.IsNatural
  | _ => True

/-- A compiler that is told to put an artifact into the staging directory of its address leaves
everything outside of that directory alone. -/
def Compiler.StaysIn {τ : Type} (compiler : Compiler τ) (store : ArtifactStore) : Prop :=
  ∀ request w, store.IsStaged request.address request.outputPath →
    store.Undisturbed request.address w.host.files ((compiler request).run w).2.host.files

namespace Disk

variable {τ ε α : Type} {d : Disk τ} {w : World τ} {store : ArtifactStore} {address : String}

theorem history_task (d : Disk τ) (t : FileTask α) (w : World τ) :
    History t.run w.host.files (d.steps t w) ((d.task t).run w).1
      ((d.task t).run w).2.host.files :=
  d.history t w

theorem files_freshTask (d : Disk τ) (t : Nat → FileTask (α × Nat)) (w : World τ) :
    ((d.freshTask t).run w).2.host.files =
      ((d.task (t w.host.fresh)).run w).2.host.files := by
  rw [StateT.run, freshTask]
  cases (d.task (t w.host.fresh)).run w with
  | mk result w' => cases result <;> rfl

theorem exists_next_of_freshTask {t : Nat → FileTask (α × Nat)} {value : α}
    (h : ((d.freshTask t).run w).1 = .ok value) :
    ∃ next, ((d.task (t w.host.fresh)).run w).1 = .ok (value, next) := by
  rw [StateT.run, freshTask] at h
  cases hrun : (d.task (t w.host.fresh)).run w with
  | mk result w' =>
      rw [hrun] at h
      cases result with
      | error f => cases h
      | ok found =>
          obtain rfl := Except.ok.inj h
          exact ⟨found.2, rfl⟩

/-- A task of staging disturbs nothing. -/
theorem undisturbed_task {t : FileTask α} (htries : t.run.Tries (store.StagingStep address))
    (d : Disk τ) (w : World τ) :
    store.Undisturbed address w.host.files ((d.task t).run w).2.host.files :=
  ArtifactStore.undisturbed_of_history htries (d.history_task t w)

theorem undisturbed_stage (d : Disk τ) (e : Engine τ ε) (address : String) (w : World τ) :
    e.environment.store.Undisturbed address w.host.files
      ((d.stage e address).run w).2.host.files := by
  rw [stage, Act.run_bind]
  refine (undisturbed_task ArtifactStore.tries_cleanStaging d w).trans ?_
  rw [Act.run_bind]
  refine (undisturbed_task ArtifactStore.tries_ensureDirectories d _).trans ?_
  split
  · exact .refl _ _ _
  · rw [files_freshTask]
    exact undisturbed_task (ArtifactStore.tries_stagingPath _) d _

/-- What a compile is given to write to is a path in the staging directory. -/
theorem isStaged_of_stage {e : Engine τ ε} {staged : Path}
    (h : ((d.stage e address).run w).1 = .ok staged) :
    e.environment.store.IsStaged address staged := by
  rw [stage, Act.run_bind, Act.run_bind] at h
  split at h
  · cases h
  · obtain ⟨next, hhanded⟩ := exists_next_of_freshTask h
    exact ArtifactStore.isStaged_of_history (hhanded ▸ d.history_task _ _)

end Disk

namespace Followed

section Files

variable {τ ε : Type} {s : EngineState τ ε} {d : Disk τ} {e : Engine τ ε} {job : CompileJob}
  {staged : Path} {errors : List ProgramError}

/-- To publish warnings changes no file. -/
theorem world_warnings (warnings : List ProgramError) (notice : ProgramError → Notice)
    (s : EngineState τ ε) :
    ((warnings.forM fun w => warning (notice w) : Followed τ ε Unit).act.run s).2.world =
      s.world := by
  induction warnings generalizing s with
  | nil => rfl
  | cons first rest ih => exact ih { s with notices := s.notices ++ [notice first] }

/-- The compiler changes only the staging directory. -/
theorem undisturbed_invokeCompiler (hstays : e.compiler.StaysIn e.environment.store)
    (hstaged : e.environment.store.IsStaged job.address staged) (s : EngineState τ ε) :
    e.environment.store.Undisturbed job.address s.world.host.files
      ((invokeCompiler e job staged).act.run s).2.world.host.files := by
  have hcompiled := hstays (e.compileRequest job
    (e.environment.template.compose job.source job.trigger) staged) s.world hstaged
  rw [invokeCompiler, act_bind, EngineAct.run_bind]
  split
  · exact hcompiled
  · rw [act_bind, EngineAct.run_bind]
    change e.environment.store.Undisturbed _ _ ((List.forM _ _ : Followed τ ε Unit).act.run
      _).2.world.host.files
    rw [world_warnings]
    exact hcompiled

theorem undisturbed_abandon (hs : e.environment.store.WellNamed) {address : String}
    (hstaged : e.environment.store.IsStaged address staged) (s : EngineState τ ε) :
    e.environment.store.Undisturbed address s.world.host.files
      ((abandon d e staged errors).act.run s).2.world.host.files :=
  Disk.undisturbed_task (ArtifactStore.tries_discard hs hstaged) d s.world

/-- What was staged is not committed, or the commit is undone. -/
theorem undisturbed_settle (hs : e.environment.store.WellNamed)
    (hstaged : e.environment.store.IsStaged job.address staged)
    (hundo : ∀ moment ∈ (settle d e job staged errors).moments s, moment.deed.Undoes)
    (hne : ((settle d e job staged errors).act.run s).1 ≠ []) :
    e.environment.store.Undisturbed job.address s.world.host.files
      ((settle d e job staged errors).act.run s).2.world.host.files := by
  rw [settle] at hundo hne ⊢
  split
  · exact undisturbed_abandon hs hstaged s
  · next hempty =>
    rw [if_neg hempty] at hundo hne
    have hcommit := d.history_task (e.environment.store.commit staged job.address) s.world
    have hnatural : ∀ event ∈ d.steps (e.environment.store.commit staged job.address) s.world,
        ArtifactStore.IsUndo (ArtifactStore.asidePath staged) event.op → event.IsNatural := by
      intro event hevent hkind
      rcases hundo _ List.mem_cons_self event hevent hkind with hok | hnatural
      · exact hcommit.isNatural_of_ok event hevent hok
      · exact hnatural
    rw [act_bind, EngineAct.run_bind] at hne ⊢
    split
    · next f hanswer =>
      change ((d.task _).run s.world).1 = _ at hanswer
      rw [hanswer] at hcommit
      have hundone := ArtifactStore.undisturbed_of_failed_commit hs hstaged hcommit hnatural
      exact hundone.trans (undisturbed_abandon hs hstaged
        ((committing d e.environment.store staged job.address).act.run s).2)
    · next hanswer =>
      rw [hanswer] at hne
      exact absurd rfl hne

theorem undisturbed_proceed (hs : e.environment.store.WellNamed)
    (hstays : e.compiler.StaysIn e.environment.store)
    (hundo : ∀ moment ∈ (proceed d e job).moments s, moment.deed.Undoes)
    (hne : ((proceed d e job).act.run s).1 ≠ []) :
    e.environment.store.Undisturbed job.address s.world.host.files
      ((proceed d e job).act.run s).2.world.host.files := by
  have hstage : e.environment.store.Undisturbed job.address s.world.host.files
      ((EngineAct.inWorld (d.stage e job.address)).run s).2.world.host.files :=
    Disk.undisturbed_stage d e job.address s.world
  rw [proceed, act_bind, EngineAct.run_bind] at hne ⊢
  rw [proceed, moments_bind] at hundo
  split
  · exact hstage
  · next staged hanswer =>
    rw [hanswer] at hne hundo
    have hstaged := Disk.isStaged_of_stage hanswer
    rw [act_bind, EngineAct.run_bind] at hne ⊢
    refine (hstage.trans (undisturbed_invokeCompiler hstays hstaged _)).trans ?_
    refine undisturbed_settle hs hstaged (fun moment hmoment => hundo moment ?_) hne
    exact List.mem_append_right _ (List.mem_append_right _ hmoment)

/-- A compile that fails has changed nothing but what is staged. -/
theorem undisturbed_compile (hs : e.environment.store.WellNamed)
    (hstays : e.compiler.StaysIn e.environment.store)
    (hundo : ∀ moment ∈ (compile d e).moments s, moment.deed.Undoes)
    (hne : ((compile d e).act.run s).1 ≠ []) :
    e.environment.store.Undisturbed s.program.address s.world.host.files
      ((compile d e).act.run s).2.world.host.files := by
  rw [run_compile] at hne ⊢
  rw [moments_compile] at hundo
  have hundisturbed := undisturbed_proceed hs hstays hundo hne
  exact hundisturbed

end Files

section Deeds

variable {τ ε α β : Type} {kind : CompileDeed → Prop}

/-- All that others learn of an act is of one kind. -/
def Tells (kind : CompileDeed → Prop) (told : Followed τ ε α) : Prop :=
  ∀ s, ∀ moment ∈ told.moments s, kind moment.deed

theorem tells_nothing {told : Followed τ ε α} (h : ∀ s, told.moments s = []) :
    told.Tells kind := by
  intro s moment hmoment
  rw [h] at hmoment
  cases hmoment

theorem Tells.bind {told : Followed τ ε α} {f : α → Followed τ ε β} (h : told.Tells kind)
    (hf : ∀ value, (f value).Tells kind) : (told >>= f).Tells kind := by
  intro s moment hmoment
  rcases List.mem_append.mp hmoment with hmoment | hmoment
  · exact h s moment hmoment
  · exact hf _ _ moment hmoment

theorem tells_warnings {warnings : List ProgramError} {notice : ProgramError → Notice}
    (h : ∀ notice, kind (.warned notice)) :
    (warnings.forM fun w => warning (notice w) : Followed τ ε Unit).Tells kind := by
  induction warnings with
  | nil => exact tells_nothing fun _ => rfl
  | cons first rest ih =>
      exact Tells.bind (fun _ => List.forall_mem_singleton.mpr (h _)) fun _ => ih

/-- What others learn of a compile is its order to the compiler, its warnings, and its commit. -/
theorem tells_compile {d : Disk τ} {e : Engine τ ε} (hordered : ∀ request, kind (.ordered request))
    (hwarned : ∀ notice, kind (.warned notice))
    (hcommitted : ∀ staged address w,
      kind (.committed staged (d.steps (e.environment.store.commit staged address) w))) :
    (compile d e).Tells kind := by
  refine (tells_nothing fun _ => rfl).bind fun job => ?_
  refine (tells_nothing fun _ => rfl).bind fun answer => ?_
  cases answer with
  | error f => exact tells_nothing fun _ => rfl
  | ok staged =>
      refine Tells.bind ?_ fun errors => ?_
      · refine Tells.bind (fun _ => List.forall_mem_singleton.mpr (hordered _)) fun answer => ?_
        cases answer with
        | error f => exact tells_nothing fun _ => rfl
        | ok ds => exact (tells_warnings hwarned).bind fun _ => tells_nothing fun _ => rfl
      · rw [settle]
        split
        · exact tells_nothing fun _ => rfl
        · refine Tells.bind (fun _ => List.forall_mem_singleton.mpr (hcommitted _ _ _))
            fun answer => ?_
          cases answer <;> exact tells_nothing fun _ => rfl

/-- On a plain disk the files alone decide, of undoing steps as well. -/
theorem undoes_compile_plain (e : Engine τ ε) : (compile .plain e).Tells CompileDeed.Undoes :=
  tells_compile (fun _ => trivial) (fun _ => trivial) fun _ _ _ event hevent _ =>
    Or.inr (isNatural_of_mem_steps _ _ event hevent)

end Deeds

end Followed

namespace Compiler

variable {τ : Type} {store : ArtifactStore} {address : String} {staged : Path}

theorem tries_write (hs : store.WellNamed) (hstaged : store.IsStaged address staged) {more : String}
    (hmore : '/' ∉ more.toList) (content : ByteArray) :
    (perform (.write (staged.append more) content)).Tries (store.StagingStep address) := by
  obtain ⟨name, hname, hpath⟩ := hstaged.exists_name hs hmore
  rw [hpath]
  exact tries_perform (.write hname content)

theorem append_empty (p : Path) : p.append "" = p := by
  rw [Path.append, String.append_empty]

/-- Compilers that play scripts stay where they are told to write. -/
theorem scripted_staysIn (part : Part τ CompileScript) (hs : store.WellNamed) :
    (scripted part).StaysIn store := by
  intro request w hstaged
  have hpart : ∀ {more : String}, '/' ∉ more.toList → ∀ content : Option ByteArray,
      (ScriptedCompile.writePart (request.outputPath.append more) content).run.Tries
        (store.StagingStep request.address) := by
    intro more hmore content
    cases content with
    | none => exact tries_pure _
    | some bytes =>
        refine (tries_write hs hstaged hmore bytes).bind fun outcome => ?_
        split
        · exact tries_pure _
        · exact tries_pure _
  rw [scripted, Act.run_bind]
  split
  · exact .refl _ _ _
  · next compile _ =>
    refine Disk.undisturbed_task (d := .plain) ?_ _
    rw [ScriptedCompile.play]
    split
    · exact tries_pure _
    · have hartifact := hpart (show '/' ∉ "".toList by decide) compile.artifact
      rw [append_empty] at hartifact
      exact FileTask.tries_bind hartifact fun _ =>
        FileTask.tries_bind (hpart (by decide) compile.debug) fun _ => tries_pure _

/-- A compiler that runs a tool stays there as far as its tool does. -/
theorem command_staysIn {run : ToolRunner τ} (c : CommandCompiler) (hs : store.WellNamed)
    (htool : ∀ program words request w, store.IsStaged request.address request.outputPath →
      store.Undisturbed request.address w.host.files
        ((run (c.order program words request)).run w).2.host.files) :
    (command run c).StaysIn store := by
  intro request w hstaged
  rw [command]
  split
  · exact .refl _ _ _
  · next program words _ =>
    have hsource : '/' ∉ ".src".toList := by decide
    have hwrite : (FileTask.during (.writeSource (CommandCompiler.sourcePath request))
        (perform (.write (CommandCompiler.sourcePath request) request.source.toUTF8))).run.Tries
          (store.StagingStep request.address) :=
      FileTask.tries_during (tries_write hs hstaged hsource _)
    have hremove : (ArtifactStore.removeIfExists (CommandCompiler.sourcePath request)).run.Tries
        (store.StagingStep request.address) := by
      obtain ⟨name, hname, hpath⟩ := hstaged.exists_name hs hsource
      rw [CommandCompiler.sourcePath, hpath]
      exact ArtifactStore.tries_removeIfExists (.remove hname)
    have hwritten := Disk.undisturbed_task hwrite .plain w
    dsimp only
    rw [Act.run_bind]
    split
    · exact hwritten
    · have hran := hwritten.trans (htool program words request _ hstaged)
      have hremoved := hran.trans (Disk.undisturbed_task hremove .plain _)
      rw [Act.run_bind, Act.run_bind]
      split
      · exact hremoved
      · split
        · exact hremoved
        · exact hremoved

end Compiler

/-- An environment that has started names its files well. -/
theorem Environment.start_wellNamed (config : EngineConfig) (processes : ProcessTable) (n : Nat) :
    FileTask.Meets (fun _ => True) (start config processes n)
      (fun started _ => started.1.store.WellNamed) fun _ => True := by
  cases hvalid : config.validate with
  | error e =>
      rw [start, hvalid]
      exact FileTask.Meets.bind (Q := fun _ _ => False) (FileTask.meets_throw fun _ _ => trivial)
        fun _ => ⟨fun _ h => h.elim⟩
  | ok _ =>
      exact meets_start (fun _ _ => trivial) (FileTask.meets_trivial _) (FileTask.meets_trivial _)
        ⟨fun _ _ => trivial⟩ (FileTask.meets_trivial _) (fun _ => ⟨fun _ _ => trivial⟩)
        (fun _ _ _ _ => ArtifactStore.wellNamed_ofConfig hvalid) fun _ => ⟨fun _ _ => trivial⟩

/-- A compile is all or nothing.  The program is disabled whenever others learn of it.  In the end
either there are no errors, and the program is as enabled as it was; or there are, the program stays
disabled and has them, and what was published is the same, whatever the compiler did in the staging
directory of the address and whichever step a disk refused, as long as it refused none of those that
undo a commit.  What the engine has loaded, bound and registered is untouched. -/
theorem Engine.compile_is_all_or_nothing {τ ε : Type} (e : Engine τ ε) :
    (Followed.compile .plain e).act = e.compile ∧
    (∀ s, ∀ moment ∈ (Followed.compile .plain e).moments s, moment.deed.Undoes) ∧
    ∀ (d : Disk τ) (s now : EngineState τ ε) (errors : List ProgramError),
      (Followed.compile d e).act.run s = (errors, now) →
        (∀ moment ∈ (Followed.compile d e).moments s, moment.state.program.isEnabled = false) ∧
        CompileOutcome s errors now ∧
        (errors ≠ [] → e.environment.store.WellNamed →
          e.compiler.StaysIn e.environment.store →
          (∀ moment ∈ (Followed.compile d e).moments s, moment.deed.Undoes) →
            e.environment.store.SamePublished s.program.address s.world.host.files
              now.world.host.files) := by
  refine ⟨Followed.act_compile e, Followed.undoes_compile_plain e, ?_⟩
  intro d s now errors hrun
  obtain ⟨houtcome, hmoments⟩ := Followed.outcome_compile d e s
  rw [hrun] at houtcome
  refine ⟨fun moment hmoment => ?_, houtcome, fun hne hs hstays hundo => ?_⟩
  · rw [(hmoments moment hmoment).program]
    rfl
  · have hundisturbed := Followed.undisturbed_compile hs hstays hundo (by rwa [hrun])
    rw [hrun] at hundisturbed
    exact hundisturbed.samePublished hs

section Lamp

/-- An engine with a compiler that plays a script. -/
def lampEngine : Engine Surroundings Entry where
  environment := ⟨.standard, .ofConfig .standard, .builtin, ⟨"programs/.shadow/1-000000"⟩⟩
  compiler := .scripted (Surroundings.compileScript 0)
  loader := Entry.scriptedLoader 0

/-- The lamp is enabled and about to be compiled, with a warning and with symbols.  A directory is in
the way of its artifact, and the symbols of an earlier one are still there. -/
def lampAtWork : EngineState Surroundings Entry where
  world :=
    { host :=
        { files :=
            { workingDirectory := []
              entries :=
                [(["programs"], .directory), (["programs", "lamp.unit"], .directory),
                  (["programs", "lamp.unit.pdb"], .file "old symbols".toUTF8 false)] }
          processes := ⟨1, []⟩
          now := ⟨0, 0⟩
          fresh := 0 }
      outside :=
        { Surroundings.empty with
          compileScripts :=
            [(0, ⟨[⟨[⟨0, 0, "unused", "", true⟩], some "new".toUTF8, some "new symbols".toUTF8,
              none⟩], []⟩)] } }
  registry := .unshared
  program := { ProgramBlock.ofSource "lamp" "" with isEnabled := true }
  slot := .unloaded
  notices := []

/-- As long as what is published of the lamp is the same, so are its symbols. -/
theorem lamp_keeps_its_symbols {now : FileTree}
    (h : lampEngine.environment.store.SamePublished "lamp" lampAtWork.world.host.files now) :
    now.node? ["programs", "lamp.unit.pdb"] = some (.file "old symbols".toUTF8 false) := by
  have hsymbols := (h ⟨"programs/lamp.unit"⟩ (by decide) ⟨"programs/lamp.unit.pdb"⟩
    (by decide +kernel)).2 ["programs", "lamp.unit.pdb"] (by decide +kernel)
  exact hsymbols.trans (by decide)

theorem blocked_lamp_is_disabled :
    ∃ errors now, lampEngine.compile.run lampAtWork = (errors, now) ∧ errors ≠ [] ∧
      (∃ moment ∈ (Followed.compile .plain lampEngine).moments lampAtWork,
        (∃ notice, moment.deed = .warned notice) ∧ moment.state.program.isEnabled = false) ∧
      now.program.isEnabled = false ∧ now.program.lastCompileErrors = errors ∧
      now.world.host.files.node? ["programs", "lamp.unit.pdb"] =
        some (.file "old symbols".toUTF8 false) := by
  obtain ⟨hact, hundo, hall⟩ := Engine.compile_is_all_or_nothing lampEngine
  obtain ⟨hdisabled, houtcome, hpublished⟩ := hall .plain lampAtWork _ _ rfl
  have hne : ((Followed.compile .plain lampEngine).act.run lampAtWork).1 ≠ [] := by
    decide +kernel
  have hwarned : ((Followed.compile .plain lampEngine).moments lampAtWork).any (fun moment =>
      match moment.deed with
      | .warned _ => true
      | _ => false) = true := by
    decide +kernel
  have hnamed : lampEngine.environment.store.WellNamed :=
    ArtifactStore.wellNamed_ofConfig (by decide)
  have hsame := hpublished hne hnamed (Compiler.scripted_staysIn _ hnamed) (hundo lampAtWork)
  have hprogram := houtcome.failed hne
  rw [← hact]
  refine ⟨_, _, rfl, hne, ?_, by rw [hprogram], by rw [hprogram], lamp_keeps_its_symbols hsame⟩
  obtain ⟨moment, hmoment, hdeed⟩ := List.any_eq_true.mp hwarned
  refine ⟨moment, hmoment, ?_, hdisabled moment hmoment⟩
  split at hdeed
  · next notice hwarning => exact ⟨notice, hwarning⟩
  · cases hdeed

end Lamp

end Automation
