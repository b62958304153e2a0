import Automation.Proofs.Engine.Faults

/-
What becomes of the diagnostics of a compiler.

The diagnostics are gone through in their order, and each is told exactly once: an error in the
result of the compile, a warning in a notice of its own.  Warnings are told whether or not there are
errors, and they decide nothing: a compiler that kept them to itself would have the compile end in
the same way.
-/

namespace Automation

namespace LineOffsets

/-- Diagnostics and where each is told, in their order: the errors apart from the warnings, each put
down to the line of the fragment that it belongs to, and all else of it as it was. -/
inductive Sorts (o : LineOffsets) :
    List RawDiagnostic → List ProgramError → List ProgramError → Prop where
  | nil : Sorts o [] [] []
  | error {d : RawDiagnostic} {ds : List RawDiagnostic} {errors warnings : List ProgramError}
      {block : CodeBlock} {line : Int} (kind : d.warning = false)
      (classified : o.classify d.line = (block, line)) (rest : Sorts o ds errors warnings) :
      Sorts o (d :: ds) (⟨line, d.column, d.message, d.code, block⟩ :: errors) warnings
  | warning {d : RawDiagnostic} {ds : List RawDiagnostic} {errors warnings : List ProgramError}
      {block : CodeBlock} {line : Int} (kind : d.warning = true)
      (classified : o.classify d.line = (block, line)) (rest : Sorts o ds errors warnings) :
      Sorts o (d :: ds) errors (⟨line, d.column, d.message, d.code, block⟩ :: warnings)

variable (o : LineOffsets)

theorem sorts (ds : List RawDiagnostic) : o.Sorts ds (o.errors ds) (o.warnings ds) := by
  induction ds with
  | nil => exact .nil
  | cons d rest ih =>
      cases kind : d.warning with
      | false =>
          simp only [errors, warnings, List.filter_cons, kind, Bool.not_false, ↓reduceIte,
            List.map_cons, Bool.false_eq_true]
          exact .error kind rfl ih
      | true =>
          simp only [errors, warnings, List.filter_cons, kind, Bool.not_true, ↓reduceIte,
            List.map_cons, Bool.false_eq_true]
          exact .warning kind rfl ih

variable {o} {ds : List RawDiagnostic} {errors warnings : List ProgramError}

/-- Nothing is dropped and nothing is told twice. -/
theorem Sorts.perm (h : o.Sorts ds errors warnings) :
    (errors ++ warnings).Perm (ds.map o.locate) := by
  induction h with
  | nil => exact .nil
  | error kind classified rest ih =>
      rw [List.map_cons, locate, classified]
      exact ih.cons _
  | warning kind classified rest ih =>
      rw [List.map_cons, locate, classified]
      exact List.perm_middle.trans (ih.cons _)

theorem errors_silenced (o : LineOffsets) (ds : List RawDiagnostic) :
    o.errors (ds.filter fun d => !d.warning) = o.errors ds := by
  simp [errors, List.filter_filter]

theorem warnings_silenced (o : LineOffsets) (ds : List RawDiagnostic) :
    o.warnings (ds.filter fun d => !d.warning) = [] := by
  simp [warnings, List.filter_filter]

theorem Sorts.errors_ne_nil_iff (h : o.Sorts ds errors warnings) :
    errors ≠ [] ↔ ∃ d ∈ ds, d.warning = false := by
  induction h with
  | nil => simp
  | error kind classified rest ih => simp [kind]
  | warning kind classified rest ih => simp [ih, kind]

end LineOffsets

/-- The compiler with its warnings kept to itself. -/
def Compiler.silenced {τ : Type} (compiler : Compiler τ) : Compiler τ := fun request => do
  pure ((← compiler request).map (List.filter fun d => !d.warning))

/-- The engine with the warnings of its compiler kept back. -/
def Engine.silenced {τ ε : Type} (e : Engine τ ε) : Engine τ ε :=
  { e with compiler := e.compiler.silenced }

namespace Followed

variable {τ ε : Type} {d : Disk τ} {e : Engine τ ε} {job : CompileJob} {staged : Path}
  {s : EngineState τ ε} {ds : List RawDiagnostic}

/-- The act neither looks at the notices given so far nor gives one. -/
def KeepsQuiet {α : Type} (told : Followed τ ε α) : Prop :=
  ∀ s notices, told.act.run { s with notices := notices } =
    ((told.act.run s).1, { (told.act.run s).2 with notices := notices })

section Quiet

variable {α β : Type}

theorem KeepsQuiet.notices {told : Followed τ ε α} (h : told.KeepsQuiet) (s : EngineState τ ε) :
    (told.act.run s).2.notices = s.notices :=
  congrArg (fun result => result.2.notices) (h s s.notices)

theorem keepsQuiet_pure (value : α) : (pure value : Followed τ ε α).KeepsQuiet := fun _ _ => rfl

theorem keepsQuiet_inWorld (act : Act τ α) :
    (quietly (EngineAct.inWorld act) : Followed τ ε α).KeepsQuiet := fun _ _ => rfl

theorem keepsQuiet_editProgram (f : ProgramBlock → ProgramBlock) :
    (quietly (EngineAct.editProgram f) : Followed τ ε Unit).KeepsQuiet := fun _ _ => rfl

theorem keepsQuiet_failCompile (errors : List ProgramError) :
    (quietly (Engine.failCompile errors) : Followed τ ε _).KeepsQuiet := fun _ _ => rfl

theorem keepsQuiet_committing (store : ArtifactStore) (address : String) :
    (committing d store staged address : Followed τ ε _).KeepsQuiet := fun _ _ => rfl

theorem KeepsQuiet.bind {told : Followed τ ε α} {f : α → Followed τ ε β} (h : told.KeepsQuiet)
    (hf : ∀ value, (f value).KeepsQuiet) : (told >>= f).KeepsQuiet := by
  intro s notices
  rw [act_bind, EngineAct.run_bind, EngineAct.run_bind, h s notices]
  exact hf _ _ notices

theorem keepsQuiet_abandon (errors : List ProgramError) :
    (abandon d e staged errors).KeepsQuiet :=
  (keepsQuiet_inWorld _).bind fun _ => keepsQuiet_failCompile errors

/-- Once the compiler has answered, nothing more is told in a notice. -/
theorem keepsQuiet_settle (errors : List ProgramError) :
    (settle d e job staged errors).KeepsQuiet := by
  rw [settle]
  split
  · exact keepsQuiet_abandon errors
  · refine (keepsQuiet_committing _ _).bind fun result => ?_
    cases result with
    | error f => exact keepsQuiet_abandon _
    | ok _ => exact (keepsQuiet_editProgram _).bind fun _ => keepsQuiet_pure []

end Quiet

/-- To publish warnings adds a notice for each, and nothing else. -/
theorem run_warnings (warnings : List ProgramError) (notice : ProgramError → Notice)
    (s : EngineState τ ε) :
    (warnings.forM fun w => warning (notice w) : Followed τ ε Unit).act.run s =
      ((), { s with notices := s.notices ++ warnings.map notice }) := by
  induction warnings generalizing s with
  | nil =>
      rw [List.map_nil, List.append_nil]
      rfl
  | cons first rest ih =>
      have hrest := ih { s with notices := s.notices ++ [notice first] }
      rw [List.append_assoc, List.singleton_append] at hrest
      exact hrest

/-- The offsets of the unit that a compile composes. -/
def jobOffsets (e : Engine τ ε) (job : CompileJob) : LineOffsets :=
  .ofComposition (e.environment.template.compose job.source job.trigger)

/-- What an answer of the compiler comes to: the errors, and a notice for each warning. -/
theorem run_invokeCompiler_of_ok {w : World τ}
    (h : (e.compiler (e.compileRequest job
      (e.environment.template.compose job.source job.trigger) staged)).run s.world = (.ok ds, w)) :
    (invokeCompiler e job staged).act.run s =
      ((jobOffsets e job).errors ds,
        { s with
          world := w
          notices := s.notices ++
            ((jobOffsets e job).warnings ds).map (Engine.warningNotice job.address) }) := by
  have hordered : (ordering (e.compileRequest job
      (e.environment.template.compose job.source job.trigger) staged)
        e.compiler).act.run s = (.ok ds, { s with world := w }) := by
    change (((e.compiler _).run s.world).1, { s with world := ((e.compiler _).run s.world).2 }) = _
    rw [h]
  rw [invokeCompiler, act_bind, EngineAct.run_bind, hordered]
  dsimp only
  rw [act_bind, EngineAct.run_bind, run_warnings]
  rfl

theorem run_invokeCompiler_of_error {f : Failure} {w : World τ}
    (h : (e.compiler (e.compileRequest job
      (e.environment.template.compose job.source job.trigger) staged)).run s.world =
        (.error f, w)) :
    (invokeCompiler e job staged).act.run s =
      (Engine.failureErrors f, { s with world := w }) := by
  have hordered : (ordering (e.compileRequest job
      (e.environment.template.compose job.source job.trigger) staged)
        e.compiler).act.run s = (.error f, { s with world := w }) := by
    change (((e.compiler _).run s.world).1, { s with world := ((e.compiler _).run s.world).2 }) = _
    rw [h]
  rw [invokeCompiler, act_bind, EngineAct.run_bind, hordered]
  rfl

/-- A compiler that keeps its warnings to itself has the same errors. -/
theorem run_invokeCompiler_silenced (e : Engine τ ε) (job : CompileJob) (staged : Path)
    (s : EngineState τ ε) :
    (invokeCompiler e.silenced job staged).act.run s =
      (((invokeCompiler e job staged).act.run s).1,
        { ((invokeCompiler e job staged).act.run s).2 with notices := s.notices }) := by
  have hsilenced : (e.silenced.compiler (e.silenced.compileRequest job
      (e.silenced.environment.template.compose job.source job.trigger) staged)).run s.world =
        (((e.compiler (e.compileRequest job
            (e.environment.template.compose job.source job.trigger) staged)).run s.world).1.map
          (List.filter fun d => !d.warning),
        ((e.compiler (e.compileRequest job
            (e.environment.template.compose job.source job.trigger) staged)).run s.world).2) := rfl
  cases hanswer : (e.compiler (e.compileRequest job
    (e.environment.template.compose job.source job.trigger) staged)).run s.world with
  | mk answer w =>
      rw [hanswer] at hsilenced
      cases answer with
      | error f => rw [run_invokeCompiler_of_error hanswer, run_invokeCompiler_of_error hsilenced]
      | ok ds =>
          rw [run_invokeCompiler_of_ok hanswer, run_invokeCompiler_of_ok hsilenced,
            LineOffsets.errors_silenced, LineOffsets.warnings_silenced, List.map_nil,
            List.append_nil]
          rfl

/-- So a compile ends in the same way without the warnings, and only the notices of them are missing. -/
theorem run_compile_silenced (d : Disk τ) (e : Engine τ ε) (s : EngineState τ ε) :
    (compile d e.silenced).act.run s =
      (((compile d e).act.run s).1,
        { ((compile d e).act.run s).2 with notices := s.notices }) := by
  have hproceed : ∀ s job, (proceed d e.silenced job).act.run s =
      (((proceed d e job).act.run s).1,
        { ((proceed d e job).act.run s).2 with notices := s.notices }) := by
    intro s job
    have hstage : d.stage e.silenced job.address = d.stage e job.address := rfl
    rw [proceed, proceed, act_bind, act_bind, EngineAct.run_bind, EngineAct.run_bind, hstage]
    have hnotices : ((quietly (EngineAct.inWorld (d.stage e job.address)) :
        Followed τ ε _).act.run s).2.notices = s.notices := rfl
    generalize (quietly (EngineAct.inWorld (d.stage e job.address))).act.run s = ready at hnotices ⊢
    obtain ⟨result, ready⟩ := ready
    cases result with
    | error f => rw [← hnotices]; rfl
    | ok staged =>
        dsimp only at hnotices ⊢
        have hsettle : ∀ errors, settle d e.silenced job staged errors =
            settle d e job staged errors := fun _ => rfl
        rw [act_bind, act_bind, EngineAct.run_bind, EngineAct.run_bind, run_invokeCompiler_silenced,
          hsettle, ← hnotices]
        exact keepsQuiet_settle _ _ _
  rw [run_compile, run_compile]
  exact hproceed s.begun s.job

end Followed

/-- What becomes of an answer of the compiler: the diagnostics are sorted with the offsets of the unit
that was compiled, every warning has a notice, the errors are the result, and without errors the
result is that of the commit. -/
structure Engine.Told {τ ε : Type} (d : Disk τ) (e : Engine τ ε) (s : EngineState τ ε)
    (staged : Path) (ds : List RawDiagnostic) (answered : World τ)
    (errors warnings : List ProgramError) (result : List ProgramError) (now : EngineState τ ε) :
    Prop where
  sorted : (e.offsets s).Sorts ds errors warnings
  perm : (errors ++ warnings).Perm (ds.map (e.offsets s).locate)
  notices : now.notices = s.notices ++ warnings.map fun w =>
    ⟨s.program.address, "Runtime.Compiler.Warning",
      w.block.tag ++ "," ++ toString w.line ++ "," ++ toString w.column ++ ": " ++ w.message⟩
  failed : errors ≠ [] → result = errors
  committed : errors = [] → result =
    match ((d.task (e.environment.store.commit staged s.program.address)).run answered).1 with
    | .ok _ => []
    | .error f => Engine.failureErrors (f.within .commitArtifact)

namespace Followed

variable {τ ε : Type} {d : Disk τ} {e : Engine τ ε} {s : EngineState τ ε}

/-- Without errors all hangs on the commit. -/
theorem run_settle_nil (d : Disk τ) (e : Engine τ ε) (job : CompileJob) (staged : Path)
    (s : EngineState τ ε) :
    ((settle d e job staged []).act.run s).1 =
      match ((d.task (e.environment.store.commit staged job.address)).run s.world).1 with
      | .ok _ => []
      | .error f => Engine.failureErrors (f.within .commitArtifact) := by
  rw [settle, if_neg (by simp), act_bind, EngineAct.run_bind]
  have hcommitted : ((committing d e.environment.store staged job.address :
      Followed τ ε _).act.run s).1 =
        ((d.task (e.environment.store.commit staged job.address)).run s.world).1 := rfl
  rw [hcommitted]
  cases ((d.task (e.environment.store.commit staged job.address)).run s.world).1 with
  | error f => rfl
  | ok _ => rfl

theorem told_compile {moment : CompileMoment τ ε} {request : CompileRequest}
    {ds : List RawDiagnostic} {answered : World τ} (h : moment ∈ (compile d e).moments s)
    (hdeed : moment.deed = .ordered request)
    (hanswer : (e.compiler request).run moment.state.world = (.ok ds, answered)) :
    request.source = (e.unit s).text ∧
      e.Told d s request.outputPath ds answered ((e.offsets s).errors ds)
        ((e.offsets s).warnings ds) ((compile d e).act.run s).1 ((compile d e).act.run s).2 := by
  rw [moments_compile] at h
  obtain ⟨staged, rfl, hnotices, hrun⟩ := proceed_of_ordered h hdeed
  rw [run_compile, hrun, act_bind, EngineAct.run_bind, run_invokeCompiler_of_ok hanswer]
  have hsorted := (e.offsets s).sorts ds
  refine ⟨rfl, hsorted, hsorted.perm, ?_, ?_, ?_⟩
  · rw [(keepsQuiet_settle _).notices]
    dsimp only
    rw [hnotices]
    rfl
  · exact fun hne => (settle_of_ne_nil d e s.job staged _ hne).1
  · intro hnil
    dsimp only
    rw [show (jobOffsets e s.job).errors ds = [] from hnil, run_settle_nil]
    rfl

end Followed

section Lamp

/-- A compiler that always tells of a warning, an error and another warning. -/
def talkingEngine : Engine Surroundings Entry :=
  { lampEngine with
    compiler := fun _ =>
      pure (.ok [⟨10, 4, "w", "1", true⟩, ⟨15, 1, "m", "2", false⟩, ⟨0, 0, "v", "", true⟩]) }

end Lamp

end Automation
