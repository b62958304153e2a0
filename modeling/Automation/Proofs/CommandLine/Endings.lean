import Automation.Proofs.CommandLine.Serving
import Automation.Proofs.Json.Compact
import Automation.Proofs.Lines

/-
How a command that runs a program ends.

The exit code tells which operations were executed, and the output has a line for each of them.  However
the command ends, its engine is given up behind that: no generation is live any more, and a claim that was
taken is given back.
-/

namespace Automation

open CommandLine

variable {τ ε : Type}

/-- Values in their compact forms are the lines of what is printed of them. -/
theorem Text.lines_jsonLines (values : List Json) :
    lines (Report.jsonLines values) = values.map Json.compact ++ [""] := by
  induction values with
  | nil => rfl
  | cons value rest ih =>
      have hvalue : '\n' ∉ value.compact.toList := by
        rw [Json.compact, String.toList_ofList]
        exact Json.lineFeed_notMem_render value
      have hjoin : (Report.jsonLines (value :: rest)).toList =
          value.compact.toList ++ '\n' :: (Report.jsonLines rest).toList := by
        simp [Report.jsonLines, Report.line]
      rw [lines] at ih ⊢
      rw [hjoin, splitAt_append_cons, splitAt_of_notMem '\n' hvalue, List.map_append, ih]
      simp

/-- What a report tells of the operations that were executed. -/
structure CommandLine.Report.Tells (e : Engine τ ε) (options : String) (withSetup : Bool)
    (s : EngineState τ ε) (executed : List Executed) (report : Report) : Prop where
  /-- Nothing was executed. -/
  notExecuted : report.code.number = 4 ↔ executed = []
  /-- The last operation has raised a fault. -/
  faulted : report.code.number = 3 ↔
    ∃ before request fault, executed = before ++ [⟨request, .error fault⟩]
  /-- The last operation has come to its end. -/
  done : report.code.number = 0 ↔
    ∃ before request result, executed = before ++ [⟨request, .ok result⟩]
  /-- When all went well, `run` was executed unless `setup` has declined it. -/
  ran : report.code.number = 0 →
    ((∃ answer, ⟨.run options, answer⟩ ∈ executed) ↔
      withSetup = false ∨ ∃ x ∈ executed, x.Agrees s.program)
  /-- There is a line for each operation, in order. -/
  lines : Text.lines report.output = (executed.map fun x => (x.shown e s).compact) ++ [""]
  /-- Nothing else was executed, and nothing in another order. -/
  ordered : executed.map Executed.request <+:
    (if withSetup then [.setup] else []) ++ [.run options]
  /-- Nothing was executed after a fault, or after a `setup` that has declined. -/
  stopped : ∀ before x after, executed = before ++ x :: after → after ≠ [] → x.Agrees s.program

namespace CommandLine.ExitCode

variable {executed : List Executed}

/-- Of some operations, the last one decides. -/
theorem after_concat (before : List Executed) (x : Executed) : after (before ++ [x]) = x.code := by
  rw [after, List.getLast?_concat]

theorem number_after_eq_four : (after executed).number = 4 ↔ executed = [] := by
  rcases List.eq_nil_or_concat executed with rfl | ⟨before, ⟨request, answer⟩, rfl⟩
  · exact ⟨fun _ => rfl, fun _ => rfl⟩
  · rw [List.concat_eq_append, after_concat]
    cases answer <;> simp [Executed.code, number]

theorem number_after_eq_three : (after executed).number = 3 ↔
    ∃ before request fault, executed = before ++ [⟨request, .error fault⟩] := by
  rcases List.eq_nil_or_concat executed with rfl | ⟨before, ⟨request, answer⟩, rfl⟩
  · simp [after, number]
  · rw [List.concat_eq_append, after_concat]
    cases answer with
    | ok result => simp [Executed.code, number]
    | error fault => exact ⟨fun _ => ⟨before, request, fault, rfl⟩, fun _ => rfl⟩

theorem number_after_eq_zero : (after executed).number = 0 ↔
    ∃ before request result, executed = before ++ [⟨request, .ok result⟩] := by
  rcases List.eq_nil_or_concat executed with rfl | ⟨before, ⟨request, answer⟩, rfl⟩
  · simp [after, number]
  · rw [List.concat_eq_append, after_concat]
    cases answer with
    | ok result => exact ⟨fun _ => ⟨before, request, result, rfl⟩, fun _ => rfl⟩
    | error fault => simp [Executed.code, number]

end CommandLine.ExitCode

namespace Proceeds

variable {p : ProgramBlock} {options : String} {withSetup : Bool} {executed : List Executed}

theorem ordered (h : Proceeds p options withSetup executed) :
    executed.map Executed.request <+: (if withSetup then [.setup] else []) ++ [.run options] := by
  cases h with
  | nothing => exact List.nil_prefix
  | run answer => exact List.prefix_rfl
  | setup hno => exact ⟨[.run options], rfl⟩
  | both hyes next => exact List.prefix_rfl

/-- Only a `setup` that agreed has something behind it. -/
theorem stopped (h : Proceeds p options withSetup executed) {before after : List Executed}
    {x : Executed} (hexecuted : executed = before ++ x :: after) (hafter : after ≠ []) :
    x.Agrees p := by
  have hlength : executed.length = before.length + (after.length + 1) := by
    rw [hexecuted, List.length_append, List.length_cons]
  have hbehind := List.length_pos_iff.mpr hafter
  cases h with
  | nothing => cases hlength
  | run answer =>
      rw [List.length_singleton] at hlength
      omega
  | setup hno =>
      rw [List.length_singleton] at hlength
      omega
  | both hyes next =>
      cases before with
      | nil =>
          rw [← (List.cons.inj hexecuted).1]
          exact hyes
      | cons first before =>
          simp only [List.length_cons, List.length_nil] at hlength
          omega

/-- Unless something has faulted or could not be bound, `run` was executed if it was to be. -/
theorem ran_iff (h : Proceeds p options withSetup executed) (hsome : executed ≠ []) :
    (∃ answer, ⟨.run options, answer⟩ ∈ executed) ↔
      withSetup = false ∨ ∃ x ∈ executed, x.Agrees p := by
  cases h with
  | nothing => exact absurd rfl hsome
  | run answer => exact ⟨fun _ => Or.inl rfl, fun _ => ⟨answer, List.mem_singleton_self _⟩⟩
  | setup hno =>
      refine ⟨fun ⟨answer, hmem⟩ => ?_, ?_⟩
      · cases List.mem_singleton.mp hmem
      · rintro (hsetup | ⟨x, hmem, hyes⟩)
        · cases hsetup
        · rw [List.mem_singleton.mp hmem] at hyes
          exact absurd hyes hno
  | both hyes next =>
      exact ⟨fun _ => Or.inr ⟨_, List.mem_cons_self, hyes⟩,
        fun _ => ⟨next, List.mem_cons_of_mem _ (List.mem_singleton_self _)⟩⟩

/-- What was executed as it may be is told by an exit code that goes by the last operation. -/
theorem tells {e : Engine τ ε} {s : EngineState τ ε} {report : Report}
    (h : Proceeds s.program options withSetup executed) (hcode : report.code = .after executed)
    (houtput : report.output = Report.jsonLines (executed.map (Executed.shown e s))) :
    report.Tells e options withSetup s executed where
  notExecuted := by rw [hcode, ExitCode.number_after_eq_four]
  faulted := by rw [hcode, ExitCode.number_after_eq_three]
  done := by rw [hcode, ExitCode.number_after_eq_zero]
  ran hdone := by
    refine h.ran_iff ?_
    rintro rfl
    rw [hcode] at hdone
    cases hdone
  lines := by rw [houtput, Text.lines_jsonLines, List.map_map]; rfl
  ordered := h.ordered
  stopped _ _ _ hexecuted hafter := h.stopped hexecuted hafter

end Proceeds

namespace Watched

open EngineAct

variable {α : Type} {e : Engine τ ε} {s : EngineState τ ε} {options : String} {withSetup : Bool}

theorem leavesTenure_formattedError (fault : ScriptFault) (inTrigger : Bool) :
    (e.formattedError fault inTrigger).LeavesTenure :=
  fun _ => ⟨rfl, rfl⟩

theorem orderlyAt_invokeRun (options : String) (printed : List Json) (s : EngineState τ ε) :
    (invokeRun e options printed).OrderlyAt s := by
  refine (orderlyAt_run e options s).bind ?_
  split
  · exact orderlyAt_pure _ _
  · exact orderlyAt_pure _ _
  · exact (orderlyAt_quietly (leavesTenure_formattedError _ _) _).bind (orderlyAt_pure _ _)

theorem orderlyAt_invokeSetup (options : String) (s : EngineState τ ε) :
    (invokeSetup e options).OrderlyAt s := by
  refine (orderlyAt_setup e s).bind ?_
  split
  · dsimp only
    split
    · exact orderlyAt_invokeRun options _ _
    · exact orderlyAt_pure _ _
  · exact orderlyAt_pure _ _
  · exact (orderlyAt_quietly (leavesTenure_formattedError _ _) _).bind (orderlyAt_pure _ _)

theorem orderlyAt_runProgram (e : Engine τ ε) (options : String) (withSetup : Bool)
    (s : EngineState τ ε) : (runProgram e options withSetup).OrderlyAt s := by
  refine (orderlyAt_load e s).bind ?_
  split
  · split
    · exact orderlyAt_invokeSetup options _
    · exact orderlyAt_invokeRun options [] _
  · exact (orderlyAt_quietly leavesTenure_program _).bind (orderlyAt_pure _ _)

theorem orderlyAt_serve (e : Engine τ ε) (options : String) (withSetup : Bool)
    (s : EngineState τ ε) : (serve e options withSetup).OrderlyAt s :=
  (orderlyAt_runProgram e options withSetup s).bind
    ((orderlyAt_dispose e _).bind (orderlyAt_pure _ _))

/-- An engine that serves makes its claims for the same owner all along. -/
theorem claims_serve (e : Engine τ ε) (options : String) (withSetup : Bool)
    (s : EngineState τ ε) :
    ((serve e options withSetup).act.run s).2.registry.claims = s.registry.claims := by
  obtain ⟨-, openings, -, hchanges⟩ := orderlyAt_serve e options withSetup s
  exact hchanges.claims

/-- The report of an engine that serves is the one that it has made before it is given up. -/
theorem act_serve_run (e : Engine τ ε) (options : String) (withSetup : Bool)
    (s : EngineState τ ε) :
    (serve e options withSetup).act.run s =
      let ran := (runProgram e options withSetup).act.run s
      (ran.1, (e.dispose.run ran.2).2) := by
  rw [serve, act_bind, run_bind, act_bind, run_bind, act_dispose]
  rfl

theorem moments_serve (e : Engine τ ε) (options : String) (withSetup : Bool)
    (s : EngineState τ ε) :
    (serve e options withSetup).moments s = (runProgram e options withSetup).moments s ++
      (dispose e).moments ((runProgram e options withSetup).act.run s).2 := by
  simp [serve]

theorem executed_serve :
    (serve e options withSetup).executed e.loader.capabilities s =
      (runProgram e options withSetup).executed e.loader.capabilities s := by
  have hdispose := executed_dispose e.loader.capabilities
    ((runProgram e options withSetup).act.run s).2 e
  rw [executed] at hdispose
  rw [executed, moments_serve, List.filterMap_append, hdispose, List.append_nil]
  rfl

/-- An engine that is given up opens nothing. -/
theorem openings_dispose : (dispose e).openings s = [] := by
  rw [openings, moments_dispose, moments_reset]
  cases s.slot.context? with
  | none => rfl
  | some context =>
      dsimp only
      split <;> rfl

/-- Whatever came of it, an engine that has served has no context any more, and no generation is live. -/
theorem closed_serve (e : Engine τ ε) (options : String) (withSetup : Bool) (hempty : s.slot = .unloaded)
    (hidle : ∀ address, s.registry.liveGeneration address = none) :
    ((serve e options withSetup).act.run s).2.slot = .unloaded ∧
      ∀ address, ((serve e options withSetup).act.run s).2.registry.liveGeneration address = none := by
  obtain ⟨-, openings, -, hchanges⟩ := orderlyAt_serve e options withSetup s
  have hslot : ((serve e options withSetup).act.run s).2.slot = .unloaded := by
    rw [act_serve_run]
    exact e.slot_dispose _
  refine ⟨hslot, fun address => ?_⟩
  by_cases hsame : address = s.program.address
  · have hbound := hchanges.inStep (by
      rw [EngineState.tenure, hempty, hidle]
      rfl)
    rw [EngineState.tenure, hslot] at hbound
    rw [hsame]
    exact hbound
  · exact (hchanges.elsewhere hsame).1.trans (hidle address)

theorem openings_serve :
    (serve e options withSetup).openings s = (runProgram e options withSetup).openings s := by
  rw [openings, moments_serve, List.filterMap_append, ← openings, ← openings, openings_dispose,
    List.append_nil]

section Unloaded

variable (hfirm : e.loader.BindsFirm) (hempty : s.slot = .unloaded)

include hfirm hempty

/-- A claim that is still held was held before, and no context was opened. -/
theorem excuses_serve (hrelease : e.loader.capabilities.ReleaseThins)
    (hholds : ((serve e options withSetup).act.run s).2.registry.HoldsClaim s.program.address
      ((serve e options withSetup).act.run s).2.world.host.files) :
    (serve e options withSetup).Excuses s := by
  obtain ⟨haddress, -⟩ := orderlyAt_runProgram e options withSetup s
  have hsettled := (faithful_runProgram hfirm hempty options withSetup).settles
  rw [act_serve_run, ← haddress] at hholds
  rw [Excuses, openings_serve]
  exact Engine.excused_of_dispose hrelease hsettled hholds

theorem opens_serve (hexecuted : (serve e options withSetup).executed e.loader.capabilities s ≠ []) :
    (serve e options withSetup).openings s ≠ [] := by
  rw [executed_serve] at hexecuted
  rw [openings_serve]
  exact (faithful_runProgram hfirm hempty options withSetup).opens hexecuted

/-- What is asked of a live context with a usable entry is all that is executed. -/
theorem isSound_serve {moment : Moment τ ε} (h : moment ∈ (serve e options withSetup).moments s)
    (hexecuted : moment.executed? e.loader.capabilities ≠ none) :
    moment.IsSound e.loader.capabilities := by
  rw [moments_serve] at h
  rcases List.mem_append.mp h with h | h
  · refine (faithful_runProgram hfirm hempty options withSetup).sound moment h ?_
    cases hquestion : moment.isQuestion with
    | true => rfl
    | false => exact absurd (Moment.executed?_eq_none hquestion) hexecuted
  · have hnone := executed_dispose e.loader.capabilities
      ((runProgram e options withSetup).act.run s).2 e
    rw [executed, List.filterMap_eq_nil_iff] at hnone
    exact absurd (hnone moment h) hexecuted

theorem tells_serve :
    ((serve e options withSetup).act.run s).1.Tells e options withSetup s
      ((serve e options withSetup).executed e.loader.capabilities s) := by
  have hfaithful := faithful_runProgram hfirm hempty options withSetup
  rw [executed_serve, act_serve_run]
  exact hfaithful.proceeds.tells hfaithful.code hfaithful.output

end Unloaded

end Watched

end Automation
