import Automation.CommandLine.Execution
import Automation.Proofs.Engine.Closings
import Automation.Proofs.Engine.Faults

/-
What a command that runs a program does with its engine.

The command loads the program, asks `setup` if it is told to and goes on when the unit agrees, asks
`run`, and gives the engine up.  Here that is told once more with the moments it passes through, and the
report is matched with the operations that were executed on the way.
-/

namespace Automation

open CommandLine

variable {τ ε : Type}

namespace Executed

/-- How a command ends after an operation, when it does not go on. -/
def code (x : Executed) : ExitCode :=
  match x.answer with
  | .ok _ => .done
  | .error _ => .faulted

/-- What is printed of an operation: what came of it, or its fault as an error of the fragment that was
running. -/
def shown (e : Engine τ ε) (s : EngineState τ ε) (x : Executed) : Json :=
  let mapped inTrigger fault :=
    ((e.offsets s).formatFault e.environment.config.entryType inTrigger fault).toJson
  match x.request, x.answer with
  | .setup, .ok result => resultJson "setup" (Operation.forced s.program result)
  | .setup, .error fault => mapped true fault
  | _, .ok result => resultJson "run" result
  | _, .error fault => mapped false fault

/-- The unit agrees to be run. -/
def Agrees (p : ProgramBlock) (x : Executed) : Prop :=
  ∃ result, x = ⟨.setup, .ok result⟩ ∧ (Operation.forced p result).returnValue = true

end Executed

/-- How a command ends after some operations: by the last one, if there is one. -/
def CommandLine.ExitCode.after (executed : List Executed) : ExitCode :=
  match executed.getLast? with
  | none => .notExecuted
  | some x => x.code

/-- What may be executed of a program: nothing, or `run`, after a `setup` that agreed if `setup` is asked
for.  A `setup` that did not agree is the last, and one that agreed is not. -/
inductive Proceeds (p : ProgramBlock) (options : String) : Bool → List Executed → Prop where
  | nothing {withSetup : Bool} : Proceeds p options withSetup []
  | run (answer : Except ScriptFault MethodRunResult) :
      Proceeds p options false [⟨.run options, answer⟩]
  | setup {answer : Except ScriptFault MethodRunResult} (h : ¬Executed.Agrees p ⟨.setup, answer⟩) :
      Proceeds p options true [⟨.setup, answer⟩]
  | both {answer : Except ScriptFault MethodRunResult} (h : Executed.Agrees p ⟨.setup, answer⟩)
      (next : Except ScriptFault MethodRunResult) :
      Proceeds p options true [⟨.setup, answer⟩, ⟨.run options, next⟩]

namespace Watched

variable (e : Engine τ ε)

def invokeRun (options : String) (printed : List Json) : Watched τ ε Report := do
  match ← run e options with
  | .ok (some result) => pure (.ofJson .done (printed ++ [resultJson "run" result]))
  | .ok none => pure (.ofJson .notExecuted printed)
  | .error fault =>
      let error ← quietly (e.formattedError fault false)
      pure (.ofJson .faulted (printed ++ [error.toJson]))

def invokeSetup (options : String) : Watched τ ε Report := do
  match ← setup e with
  | .ok (some result) =>
      let printed := [resultJson "setup" result]
      if result.returnValue then invokeRun e options printed else pure (.ofJson .done printed)
  | .ok none => pure (.ofJson .notExecuted [])
  | .error fault =>
      let error ← quietly (e.formattedError fault true)
      pure (.ofJson .faulted [error.toJson])

def runProgram (options : String) (withSetup : Bool) : Watched τ ε Report := do
  if ← quietly e.load then
    if withSetup then invokeSetup e options else invokeRun e options []
  else pure ⟨.notExecuted, "", Report.line (← quietly EngineAct.program).scriptErrors⟩

/-- An engine runs its program once and is given up. -/
def serve (options : String) (withSetup : Bool) : Watched τ ε Report := do
  let report ← runProgram e options withSetup
  dispose e
  pure report

theorem act_invokeRun (options : String) (printed : List Json) :
    (invokeRun e options printed).act = CommandLine.invokeRun e options printed := by
  simp only [invokeRun, CommandLine.invokeRun, act_bind, act_run]
  congr 1
  funext reported
  rcases reported with fault | _ | result <;> rfl

theorem act_invokeSetup (options : String) :
    (invokeSetup e options).act = CommandLine.invokeSetup e options := by
  simp only [invokeSetup, CommandLine.invokeSetup, act_bind, act_setup]
  congr 1
  funext reported
  rcases reported with fault | _ | result
  · rfl
  · rfl
  · dsimp only
    split
    · exact act_invokeRun e options _
    · rfl

theorem act_runProgram (options : String) (withSetup : Bool) :
    (runProgram e options withSetup).act = CommandLine.runProgram e options withSetup := by
  simp only [runProgram, CommandLine.runProgram, act_bind, act_quietly]
  congr 1
  funext loaded
  cases loaded with
  | false => rfl
  | true =>
      cases withSetup with
      | false => exact act_invokeRun e options []
      | true => exact act_invokeSetup e options

/-- Forgetting the moments gives back what the command does with its engine. -/
theorem act_serve (options : String) (withSetup : Bool) :
    (serve e options withSetup).act = (do
      let report ← CommandLine.runProgram e options withSetup
      e.dispose
      pure report) := by
  simp only [serve, act_bind, act_runProgram, act_dispose, act_pure]

end Watched

/-- What is printed of an operation goes by what the author has written. -/
theorem Executed.shown_of_writing {e : Engine τ ε} {s now : EngineState τ ε} (x : Executed)
    (h : now.program.writing = s.program.writing) : x.shown e now = x.shown e s := by
  have hunit : ∀ p : ProgramBlock, e.environment.template.compose p.scriptSource p.scriptSetup =
      e.environment.template.compose p.writing.scriptSource p.writing.scriptSetup := fun _ => rfl
  have hforce : ∀ p, Operation.forced p = Operation.forced p.writing := fun _ => rfl
  have hoffsets : e.offsets now = e.offsets s := by
    rw [Engine.offsets, Engine.offsets, Engine.unit, Engine.unit, hunit, h, ← hunit]
  have hforced : Operation.forced now.program = Operation.forced s.program := by
    rw [hforce, h, ← hforce]
  rw [shown, shown, hoffsets, hforced]

namespace Watched

variable {α : Type} {e : Engine τ ε} {s : EngineState τ ε} {options : String} {printed : List Json}

theorem moments_invokeRun : (invokeRun e options printed).moments s = (run e options).moments s := by
  rw [invokeRun, moments_bind, List.append_right_eq_self]
  generalize ((run e options).act.run s).1 = reported
  rcases reported with fault | _ | result <;> rfl

theorem act_invokeRun_snd :
    ((invokeRun e options printed).act.run s).2 = ((e.run options).run s).2 := by
  rw [invokeRun, act_bind, EngineAct.run_bind, act_run]
  generalize (e.run options).run s = done
  obtain ⟨fault | _ | result, now⟩ := done <;> rfl

/-- `run` executes nothing or itself. -/
theorem executed_run_cases (e : Engine τ ε) (options : String) (s : EngineState τ ε) :
    ((run e options).executed e.loader.capabilities s = [] ∧
        ((e.run options).run s).1 = .ok none) ∨
      ∃ answer, (run e options).executed e.loader.capabilities s = [⟨.run options, answer⟩] ∧
        ((e.run options).run s).1 = answer.map some := by
  have htold := ((e.happens_run options s).isToldBy).cases (Operation.executes_run _ options)
  rwa [act_run] at htold

/-- `setup` executes nothing or itself. -/
theorem executed_setup_cases (e : Engine τ ε) (s : EngineState τ ε) :
    ((setup e).executed e.loader.capabilities s = [] ∧ (e.setup.run s).1 = .ok none) ∨
      ∃ answer, (setup e).executed e.loader.capabilities s = [⟨.setup, answer⟩] ∧
        (e.setup.run s).1 = answer.map fun result => some (Operation.forced s.program result) := by
  have htold := ((e.happens_setup s).isToldBy).cases (Operation.executes_setup _)
  rwa [act_setup] at htold

/-- A `setup` that has a result was executed, and its result is the unit's own as far as the program
lets it be. -/
theorem executed_setup_of_ok {result : MethodRunResult} (h : (e.setup.run s).1 = .ok (some result)) :
    ∃ given, (setup e).executed e.loader.capabilities s = [⟨.setup, .ok given⟩] ∧
      Operation.forced s.program given = result := by
  rcases executed_setup_cases e s with ⟨-, hreported⟩ | ⟨answer, hone, hreported⟩
  · cases hreported.symm.trans h
  · cases answer with
    | error fault => cases hreported.symm.trans h
    | ok given => exact ⟨given, hone, Option.some.inj (Except.ok.inj (hreported.symm.trans h))⟩

/-- What has been executed is printed behind what has been printed before. -/
theorem reported_invokeRun :
    ((invokeRun e options printed).act.run s).1 =
      .ofJson (.after ((run e options).executed e.loader.capabilities s))
        (printed ++ ((run e options).executed e.loader.capabilities s).map (Executed.shown e s)) := by
  rw [invokeRun, act_bind, EngineAct.run_bind, act_run]
  have hwriting := (e.continues_run options s).writing
  rcases executed_run_cases e options s with ⟨hnone, hreported⟩ | ⟨answer, hone, hreported⟩
  · rw [hreported, hnone, List.map_nil, List.append_nil]
    rfl
  · rw [hreported, hone, List.map_singleton]
    cases answer with
    | ok result => rfl
    | error fault =>
        rw [← Executed.shown_of_writing _ hwriting]
        rfl

/-- A `setup` that did not agree is the end of it. -/
theorem invokeSetup_of_not_agreed (options : String)
    (h : ∀ result, (e.setup.run s).1 = .ok (some result) → result.returnValue = false) :
    (invokeSetup e options).moments s = (setup e).moments s ∧
      ((invokeSetup e options).act.run s).2 = (e.setup.run s).2 := by
  rw [invokeSetup, moments_bind, List.append_right_eq_self, act_bind, EngineAct.run_bind, act_setup]
  generalize e.setup.run s = done at h ⊢
  obtain ⟨fault | _ | result, now⟩ := done
  · exact ⟨rfl, rfl⟩
  · exact ⟨rfl, rfl⟩
  · have hno : ¬result.returnValue = true := by simp [h result rfl]
    dsimp only
    rw [if_neg hno]
    exact ⟨rfl, rfl⟩

/-- After a `setup` that agreed comes `run`. -/
theorem invokeSetup_of_agreed (options : String) {result : MethodRunResult}
    (h : (e.setup.run s).1 = .ok (some result)) (hyes : result.returnValue = true) :
    (invokeSetup e options).moments s =
        (setup e).moments s ++ (run e options).moments (e.setup.run s).2 ∧
      (invokeSetup e options).act.run s =
        (invokeRun e options [resultJson "setup" result]).act.run (e.setup.run s).2 := by
  rw [invokeSetup, moments_bind, act_bind, EngineAct.run_bind, act_setup, h]
  dsimp only
  rw [if_pos hyes, moments_invokeRun]
  exact ⟨rfl, rfl⟩

/-- What a command reports of the operations that it has executed is true.  All of them were asked of a
live context with a usable entry, in a context that was opened for them, and the engine is left settled. -/
structure Faithful (e : Engine τ ε) (options : String) (withSetup : Bool) (s : EngineState τ ε)
    (told : Watched τ ε Report) : Prop where
  proceeds : Proceeds s.program options withSetup (told.executed e.loader.capabilities s)
  code : (told.act.run s).1.code = .after (told.executed e.loader.capabilities s)
  output : (told.act.run s).1.output =
    Report.jsonLines ((told.executed e.loader.capabilities s).map (Executed.shown e s))
  sound : ∀ moment ∈ told.moments s, moment.isQuestion = true →
    moment.IsSound e.loader.capabilities
  opens : told.executed e.loader.capabilities s ≠ [] → told.openings s ≠ []
  settles : (told.act.run s).2.Settled (told.Excuses s)

theorem faithful_invokeRun (hfirm : e.loader.BindsFirm) (hunbound : s.slot.context? = none) :
    Faithful e options false s (invokeRun e options []) := by
  have hinvokes : (invokeRun e options []).Invokes e (.run options) s :=
    moments_invokeRun.trans (e.invokes_run options s)
  have hexecuted : (invokeRun e options []).executed e.loader.capabilities s =
      (run e options).executed e.loader.capabilities s := executed_congr _ _ moments_invokeRun
  refine ⟨?_, ?_, ?_, hinvokes.isSound (Engine.serves_ensureBound hfirm hunbound),
    hinvokes.opens hunbound, ?_⟩
  · rw [hexecuted]
    rcases executed_run_cases e options s with ⟨hnone, -⟩ | ⟨answer, hone, -⟩
    · rw [hnone]
      exact .nothing
    · rw [hone]
      exact .run answer
  · rw [reported_invokeRun, hexecuted]
    rfl
  · rw [reported_invokeRun, hexecuted]
    rfl
  · rw [act_invokeRun_snd, hinvokes.excuses]
    exact Engine.settled_run (Engine.settled_ensureBound hunbound)

/-- The `run` that follows a `setup` finds the context that was set up, and executes. -/
theorem executed_run_of_serves (options : String) {context : BoundContext ε}
    (h : e.Serves s context) :
    ∃ answer, (run e options).executed e.loader.capabilities s = [⟨.run options, answer⟩] := by
  obtain ⟨hbound, hmoments⟩ := h.ensureBound
  refine ⟨((e.loader.capabilities.run context.entry options).run s.world).1.1, ?_⟩
  rw [executed, moments_run, hmoments, hbound]
  rfl

theorem reported_invokeSetup
    (h : ∀ result, (e.setup.run s).1 = .ok (some result) → result.returnValue = false) :
    ((invokeSetup e options).act.run s).1 =
      .ofJson (.after ((setup e).executed e.loader.capabilities s))
        (((setup e).executed e.loader.capabilities s).map (Executed.shown e s)) := by
  rw [invokeSetup, act_bind, EngineAct.run_bind, act_setup]
  have hwriting := (e.continues_setup s).writing
  rcases executed_setup_cases e s with ⟨hnone, hreported⟩ | ⟨answer, hone, hreported⟩
  · rw [hreported, hnone]
    rfl
  · rw [hreported] at h ⊢
    rw [hone, List.map_singleton]
    cases answer with
    | ok result =>
        have hno : ¬(Operation.forced s.program result).returnValue = true := by
          simp [h _ rfl]
        dsimp only [Except.map]
        rw [if_neg hno]
        rfl
    | error fault =>
        rw [← Executed.shown_of_writing _ hwriting]
        rfl

/-- A `setup` that did not agree. -/
theorem faithful_invokeSetup_of_not_agreed (hfirm : e.loader.BindsFirm)
    (hunbound : s.slot.context? = none)
    (h : ∀ result, (e.setup.run s).1 = .ok (some result) → result.returnValue = false) :
    Faithful e options true s (invokeSetup e options) := by
  obtain ⟨hsame, hnow⟩ := invokeSetup_of_not_agreed options h
  have hinvokes : (invokeSetup e options).Invokes e .setup s := hsame.trans (e.invokes_setup s)
  have hexecuted : (invokeSetup e options).executed e.loader.capabilities s =
      (setup e).executed e.loader.capabilities s := executed_congr _ _ hsame
  refine ⟨?_, ?_, ?_, hinvokes.isSound (Engine.serves_ensureBound hfirm hunbound),
    hinvokes.opens hunbound, ?_⟩
  · rw [hexecuted]
    rcases executed_setup_cases e s with ⟨hnone, -⟩ | ⟨answer, hone, hreported⟩
    · rw [hnone]
      exact .nothing
    · rw [hone]
      refine .setup ?_
      rintro ⟨result, hanswer, hyes⟩
      obtain rfl : answer = .ok result := congrArg Executed.answer hanswer
      rw [h _ hreported] at hyes
      cases hyes
  · rw [reported_invokeSetup h, hexecuted]
    rfl
  · rw [reported_invokeSetup h, hexecuted]
    rfl
  · rw [hnow, hinvokes.excuses]
    exact Engine.settled_setup (Engine.settled_ensureBound hunbound)

/-- A `setup` that agreed: the `run` that follows is executed by the same context. -/
theorem faithful_invokeSetup_of_agreed (hfirm : e.loader.BindsFirm)
    (hunbound : s.slot.context? = none) {result : MethodRunResult}
    (h : (e.setup.run s).1 = .ok (some result)) (hyes : result.returnValue = true) :
    Faithful e options true s (invokeSetup e options) := by
  obtain ⟨hmoments, hrun⟩ := invokeSetup_of_agreed options h hyes
  obtain ⟨context, hserves⟩ := Engine.exists_serves_setup hfirm hunbound h
  obtain ⟨next, hnext⟩ := executed_run_of_serves options hserves
  have hwriting := (e.continues_setup s).writing
  obtain ⟨given, hone, rfl⟩ := executed_setup_of_ok h
  have hexecuted : (invokeSetup e options).executed e.loader.capabilities s =
      [⟨.setup, .ok given⟩, ⟨.run options, next⟩] := by
    rw [executed, hmoments, List.filterMap_append]
    exact congrArg₂ (· ++ ·) hone hnext
  have hreport : ((invokeSetup e options).act.run s).1 =
      .ofJson (.after ((invokeSetup e options).executed e.loader.capabilities s))
        (((invokeSetup e options).executed e.loader.capabilities s).map (Executed.shown e s)) := by
    rw [hrun, reported_invokeRun, hnext, hexecuted, List.map_singleton,
      Executed.shown_of_writing _ hwriting]
    rfl
  refine ⟨?_, ?_, ?_, ?_, fun _ => ?_, ?_⟩
  · rw [hexecuted]
    exact .both ⟨given, rfl, hyes⟩ next
  · rw [hreport]
    rfl
  · rw [hreport]
    rfl
  · rw [hmoments]
    intro moment hmoment
    rcases List.mem_append.mp hmoment with hmoment | hmoment
    · exact (e.invokes_setup s).isSound (Engine.serves_ensureBound hfirm hunbound) moment hmoment
    -- The second question goes to the context that `setup` has left, and not to one that is bound anew.
    · exact (e.invokes_run options _).isSound hserves.of_ensureBound moment hmoment
  · have hopened := (e.invokes_setup s).opens hunbound (hone ▸ List.cons_ne_nil _ _)
    rw [openings, hmoments, List.filterMap_append]
    exact List.append_ne_nil_of_left_ne_nil hopened _
  · rw [hrun, act_invokeRun_snd]
    refine Engine.settled_run ?_
    rw [hserves.ensureBound.1]
    exact hserves.settled

theorem faithful_invokeSetup (hfirm : e.loader.BindsFirm) (hunbound : s.slot.context? = none) :
    Faithful e options true s (invokeSetup e options) := by
  by_cases h : ∃ result, (e.setup.run s).1 = .ok (some result) ∧ result.returnValue = true
  · obtain ⟨result, hresult, hyes⟩ := h
    exact faithful_invokeSetup_of_agreed hfirm hunbound hresult hyes
  · refine faithful_invokeSetup_of_not_agreed hfirm hunbound fun result hresult => ?_
    rw [← Bool.not_eq_true]
    exact fun hyes => h ⟨result, hresult, hyes⟩

/-- It makes no difference that an image has been loaded first. -/
theorem Faithful.of_loaded {slot : Slot ε} {withSetup : Bool} {told later : Watched τ ε Report}
    (h : Faithful e options withSetup { s with slot := slot } later)
    (hmoments : told.moments s = later.moments { s with slot := slot })
    (hact : told.act.run s = later.act.run { s with slot := slot }) :
    Faithful e options withSetup s told := by
  have hexecuted : told.executed e.loader.capabilities s =
      later.executed e.loader.capabilities { s with slot := slot } := executed_congr _ _ hmoments
  have hopenings : told.openings s = later.openings { s with slot := slot } := by
    rw [openings, hmoments]
    rfl
  refine ⟨?_, ?_, ?_, ?_, ?_, ?_⟩
  · rw [hexecuted]
    exact h.proceeds
  · rw [hexecuted, hact]
    exact h.code
  · rw [hexecuted, hact]
    exact h.output
  · rw [hmoments]
    exact h.sound
  · rw [hexecuted, hopenings]
    exact h.opens
  · rw [hact, Excuses, hopenings]
    exact h.settles

/-- Where there is nothing to load, nothing is executed and nothing is opened. -/
theorem faithful_runProgram_of_not_loaded {withSetup : Bool} (hempty : s.slot = .unloaded)
    {f : Failure} (hstored : e.stored s = .error f) :
    Faithful e options withSetup s (runProgram e options withSetup) := by
  have hload := e.load_run s
  rw [e.cleared_of_unloaded s hempty, e.run_copyStored_error s hstored] at hload
  have hmoments : (runProgram e options withSetup).moments s = [] := by
    rw [runProgram, moments_bind, moments_quietly, act_quietly, hload]
    rfl
  have hopenings : (runProgram e options withSetup).openings s = [] := by
    rw [openings, hmoments]
    rfl
  have hexecuted : (runProgram e options withSetup).executed e.loader.capabilities s = [] := by
    rw [executed, hmoments]
    rfl
  have hact : (runProgram e options withSetup).act.run s =
      (⟨.notExecuted, "", Report.line (e.load.run s).2.program.scriptErrors⟩, (e.load.run s).2) := by
    rw [runProgram, act_bind, EngineAct.run_bind, act_quietly, hload]
    rfl
  refine ⟨?_, ?_, ?_, ?_, ?_, ?_⟩
  · rw [hexecuted]
    exact .nothing
  · rw [hact, hexecuted]
    rfl
  · rw [hact, hexecuted]
    rfl
  · rw [hmoments]
    exact fun moment hmoment => absurd hmoment List.not_mem_nil
  · rw [hexecuted]
    exact fun hsome => absurd rfl hsome
  · rw [hact, hload, Excuses, hopenings]
    refine (EngineState.Settled.unclaimed (by rw [hempty]; rfl) ?_).edit ?_
    · exact fun hholds => ⟨rfl, hholds⟩
    · split <;> rfl

/-- Whatever there is to load, the report is true. -/
theorem faithful_runProgram (hfirm : e.loader.BindsFirm) (hempty : s.slot = .unloaded)
    (options : String) (withSetup : Bool) :
    Faithful e options withSetup s (runProgram e options withSetup) := by
  cases hstored : e.stored s with
  | error f => exact faithful_runProgram_of_not_loaded hempty hstored
  | ok image =>
      have hload := e.load_run s
      rw [e.cleared_of_unloaded s hempty, e.run_copyStored_ok s hstored] at hload
      have hmoments : (runProgram e options withSetup).moments s =
          (if withSetup then invokeSetup e options else invokeRun e options []).moments
            { s with slot := .loaded image none } := by
        rw [runProgram, moments_bind, moments_quietly, act_quietly, hload]
        rfl
      have hact : (runProgram e options withSetup).act.run s =
          (if withSetup then invokeSetup e options else invokeRun e options []).act.run
            { s with slot := .loaded image none } := by
        rw [runProgram, act_bind, EngineAct.run_bind, act_quietly, hload]
        rfl
      cases withSetup with
      | false => exact (faithful_invokeRun hfirm rfl).of_loaded hmoments hact
      | true => exact (faithful_invokeSetup hfirm rfl).of_loaded hmoments hact

end Watched

end Automation
