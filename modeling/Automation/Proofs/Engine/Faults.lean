import Automation.Proofs.Engine.Origins
import Automation.Proofs.Engine.Reported

/-
Faults and diagnostics at the same line.

A fault carries a line of the composed unit, and so does a diagnostic.  A diagnostic is put down to the
fragment that its line belongs to; a fault is put down to the fragment that was running.  Where the two
name the same fragment they name the same line of it, and where they do not the lines are apart by what
lies between the starts of the fragments.
-/

namespace Automation

/-- The type that declares the method of a frame is the entry type, possibly nested in others. -/
def StackFrame.IsEntry (entryType : String) (frame : StackFrame) : Prop :=
  ∃ name, frame.declaringType = some name ∧ entryType.toList <:+ name.toList

/-- The line of the composed unit that a fault is put down to. -/
inductive ScriptFault.RaisedAt (fault : ScriptFault) (entryType : String) : Int → Prop where
  /-- The first frame of the entry type. -/
  | entry {before after : List StackFrame} {frame : StackFrame}
      (frames : fault.frames = before ++ frame :: after) (found : frame.IsEntry entryType)
      (first : ∀ other ∈ before, ¬other.IsEntry entryType) : RaisedAt fault entryType frame.line
  /-- The innermost frame of a stack without any. -/
  | innermost {frame : StackFrame} {after : List StackFrame} (frames : fault.frames = frame :: after)
      (missing : ∀ other ∈ fault.frames, ¬other.IsEntry entryType) :
      RaisedAt fault entryType frame.line
  /-- No stack at all. -/
  | nowhere (frames : fault.frames = []) : RaisedAt fault entryType 0

theorem StackFrame.isDeclaredBy_iff {entryType : String} {frame : StackFrame} :
    frame.isDeclaredBy entryType = true ↔ frame.IsEntry entryType := by
  rw [isDeclaredBy, IsEntry]
  cases frame.declaringType with
  | none => simp
  | some name => simp [List.isSuffixOf_iff_suffix]

/-- Every fault is put down to exactly one line. -/
theorem ScriptFault.raisedAt_iff {fault : ScriptFault} {entryType : String} {line : Int} :
    fault.RaisedAt entryType line ↔ line = fault.line entryType := by
  have hentry : ∀ frame : StackFrame,
      frame.isDeclaredBy entryType = false ↔ ¬frame.IsEntry entryType := fun frame => by
    rw [← StackFrame.isDeclaredBy_iff, Bool.not_eq_true]
  constructor
  · intro h
    cases h with
    | @entry before after frame frames found first =>
        have hfind : fault.frames.find? (StackFrame.isDeclaredBy entryType) = some frame := by
          rw [frames, List.find?_append, List.find?_eq_none.mpr fun other hother => by
            simpa using (hentry other).mpr (first other hother), Option.none_or,
            List.find?_cons_of_pos (StackFrame.isDeclaredBy_iff.mpr found)]
        rw [ScriptFault.line, hfind]
    | innermost frames missing =>
        have hfind : fault.frames.find? (StackFrame.isDeclaredBy entryType) = none :=
          List.find?_eq_none.mpr fun other hother => by
            simpa using (hentry other).mpr (missing other hother)
        rw [ScriptFault.line, hfind, frames]
    | nowhere frames => rw [ScriptFault.line, frames, List.find?_nil]
  · rintro rfl
    rw [ScriptFault.line]
    cases hfind : fault.frames.find? (StackFrame.isDeclaredBy entryType) with
    | some frame =>
        obtain ⟨hfound, before, after, hframes, hfirst⟩ := List.find?_eq_some_iff_append.mp hfind
        refine .entry hframes (StackFrame.isDeclaredBy_iff.mp hfound) fun other hother => ?_
        exact (hentry other).mp (by simpa using hfirst other hother)
    | none =>
        have hmissing : ∀ other ∈ fault.frames, ¬other.IsEntry entryType := fun other hother =>
          (hentry other).mp (by simpa using List.find?_eq_none.mp hfind other hother)
        cases hframes : fault.frames with
        | nil => exact .nowhere hframes
        | cons first others => exact .innermost hframes hmissing

theorem ScriptFault.StopsAt.raisedAt {fault : ScriptFault} {entryType : String} {line : Nat}
    (h : fault.StopsAt entryType line) : fault.RaisedAt entryType line :=
  ScriptFault.raisedAt_iff.mpr h.line_eq.symm

namespace LineOffsets

/-- The line of the composed unit that a fragment starts on. -/
def start (o : LineOffsets) : CodeBlock → Int
  | .mainBody => o.mainOffset
  | .triggerCondition => o.mainOffset + o.mainLineCount + o.triggerOffset

/-- The fragment that runs in `setup`, and the one that runs otherwise. -/
def running (inTrigger : Bool) : CodeBlock := if inTrigger then .triggerCondition else .mainBody

variable (o : LineOffsets)

/-- Either way of counting is by the distance from the start of a fragment. -/
theorem classify_eq (line : Int) : ∃ block, o.classify line = (block, line - o.start block) := by
  have hstart : o.start .triggerCondition = o.mainOffset + o.triggerStart := by
    simp only [start, triggerStart]
    omega
  by_cases hline : o.start .triggerCondition ≤ line
  · refine ⟨.triggerCondition, ?_⟩
    rw [classify_of_le (by omega), hstart]
  · refine ⟨.mainBody, ?_⟩
    rw [classify_of_lt (by omega), start]

theorem formatFault_eq (entryType : String) (inTrigger : Bool) (fault : ScriptFault) :
    o.formatFault entryType inTrigger fault =
      ⟨fault.line entryType - o.start (running inTrigger), 0, fault.message, "-1",
        running inTrigger⟩ := by
  cases inTrigger with
  | false => rfl
  | true =>
      have hsum : o.triggerOffset + o.mainOffset + o.mainLineCount =
          o.start .triggerCondition := by
        simp only [start]
        omega
      rw [formatFault, hsum]
      rfl

/-- The starts of the fragments are apart by the main body and what lies between the fragments. -/
theorem start_triggerCondition :
    o.start .triggerCondition = o.start .mainBody + (o.mainLineCount + o.triggerOffset) := by
  simp only [start]
  omega

/-- How a fault at a line of the composed unit is told, when it is put down to a fragment: its line is
counted from the start of that fragment.  It agrees with a diagnostic at the same line if that is put
down to the same fragment, and otherwise they are apart by the main body and what comes between the
fragments. -/
structure PutDown (rawLine : Int) (block : CodeBlock) (told : ProgramError) : Prop where
  block_eq : told.block = block
  column_eq : told.column = 0
  number_eq : told.number = "-1"
  rawLine_eq : rawLine = told.line + o.start block
  same : (o.classify rawLine).1 = block → (told.block, told.line) = o.classify rawLine
  ahead : block = .mainBody → (o.classify rawLine).1 = .triggerCondition →
    told.line = (o.classify rawLine).2 + (o.mainLineCount + o.triggerOffset)
  behind : block = .triggerCondition → (o.classify rawLine).1 = .mainBody →
    (o.classify rawLine).2 = told.line + (o.mainLineCount + o.triggerOffset)

theorem putDown_formatFault {entryType : String} {fault : ScriptFault} {rawLine : Int}
    (h : fault.RaisedAt entryType rawLine) (inTrigger : Bool) :
    o.PutDown rawLine (running inTrigger) (o.formatFault entryType inTrigger fault) := by
  obtain rfl := ScriptFault.raisedAt_iff.mp h
  obtain ⟨block, hclassify⟩ := o.classify_eq (fault.line entryType)
  have hstarts := o.start_triggerCondition
  rw [formatFault_eq]
  refine ⟨rfl, rfl, rfl, (Int.sub_add_cancel _ _).symm, ?_, ?_, ?_⟩
  · rintro hblock
    rw [hclassify] at hblock ⊢
    rw [← show block = running inTrigger from hblock]
  · intro hmain hblock
    rw [hclassify] at hblock ⊢
    dsimp only
    rw [hmain, show block = .triggerCondition from hblock, hstarts]
    omega
  · intro htrigger hblock
    rw [hclassify] at hblock ⊢
    dsimp only
    rw [htrigger, show block = .mainBody from hblock, hstarts]
    omega

/-- A fault that was running in the fragment its line belongs to is told like a diagnostic there. -/
theorem formatFault_eq_locate {entryType : String} {inTrigger : Bool} {fault : ScriptFault}
    {d : RawDiagnostic} (h : fault.RaisedAt entryType d.line)
    (hblock : (o.classify d.line).1 = running inTrigger) :
    o.formatFault entryType inTrigger fault =
      { o.locate d with column := 0, message := fault.message, number := "-1" } := by
  obtain ⟨block, hclassify⟩ := o.classify_eq d.line
  rw [hclassify] at hblock
  have hlocate : o.locate d = ⟨d.line - o.start block, d.column, d.message, d.code, block⟩ := by
    rw [locate, hclassify]
  rw [formatFault_eq, hlocate, ← ScriptFault.raisedAt_iff.mp h,
    ← show block = running inTrigger from hblock]

end LineOffsets

namespace Followed

variable {τ ε : Type} {d : Disk τ} {e : Engine τ ε} {job : CompileJob} {s : EngineState τ ε}

/-- Where the compiler is ordered to work nobody has been told of anything yet, and the compile goes on
with what it answers. -/
theorem proceed_of_ordered {moment : CompileMoment τ ε} {request : CompileRequest}
    (h : moment ∈ (proceed d e job).moments s) (hdeed : moment.deed = .ordered request) :
    ∃ staged, request = e.compileRequest job
        (e.environment.template.compose job.source job.trigger) staged ∧
      moment.state.notices = s.notices ∧
      (proceed d e job).act.run s =
        (invokeCompiler e job staged >>= settle d e job staged).act.run moment.state := by
  rw [proceed, moments_bind, moments_quietly, List.nil_append] at h
  rw [proceed, act_bind, EngineAct.run_bind]
  split at h
  · cases h
  · next staged hstaged =>
    rcases List.mem_append.mp h with hinvoked | hsettled
    · rcases mem_moments_invokeCompiler hinvoked with rfl | ⟨notice, hwarned⟩
      · cases hdeed
        exact ⟨staged, rfl, rfl, rfl⟩
      · cases hdeed.symm.trans hwarned
    · obtain ⟨steps, hcommitted⟩ := mem_moments_settle hsettled
      cases hdeed.symm.trans hcommitted

/-- What the compiler is asked to compile is composed of the sources, and the errors it answers are the
errors of the compile. -/
theorem proceed_of_answer {moment : CompileMoment τ ε} {request : CompileRequest}
    {ds : List RawDiagnostic} (h : moment ∈ (proceed d e job).moments s)
    (hdeed : moment.deed = .ordered request)
    (hanswer : ((e.compiler request).run moment.state.world).1 = .ok ds) :
    request.source = (e.environment.template.compose job.source job.trigger).text ∧
      (hasErrors ds = true → ((proceed d e job).act.run s).1 =
        (LineOffsets.ofComposition
          (e.environment.template.compose job.source job.trigger)).errors ds) := by
  obtain ⟨staged, rfl, -, hrun⟩ := proceed_of_ordered h hdeed
  refine ⟨rfl, fun herrors => ?_⟩
  have htold : ((invokeCompiler e job staged).act.run moment.state).1 =
      (LineOffsets.ofComposition
        (e.environment.template.compose job.source job.trigger)).errors ds := by
    rw [act_invokeCompiler, Engine.invokeCompiler, EngineAct.run_bind, EngineAct.run_inWorld,
      hanswer]
    rfl
  rw [hrun, act_bind, EngineAct.run_bind, htold]
  exact (settle_of_ne_nil d e job staged _ (errors_ne_nil herrors)).1

end Followed

namespace Engine

variable {τ ε : Type}

/-- The unit that the program would be compiled from now. -/
def unit (e : Engine τ ε) (s : EngineState τ ε) : Composition :=
  e.environment.template.compose s.program.scriptSource s.program.scriptSetup

/-- Where the fragments of that unit are. -/
def offsets (e : Engine τ ε) (s : EngineState τ ε) : LineOffsets := .ofComposition (e.unit s)

/-- Faults are told with the offsets of the unit that the program would be compiled from now. -/
theorem run_formattedError (e : Engine τ ε) (fault : ScriptFault) (inTrigger : Bool)
    (s : EngineState τ ε) :
    (e.formattedError fault inTrigger).run s =
      ((e.offsets s).formatFault e.environment.config.entryType inTrigger fault, s) := rfl

/-- What the compiler answers to a compile is told with those offsets too. -/
theorem compile_of_answer (e : Engine τ ε) {s : EngineState τ ε} {moment : CompileMoment τ ε}
    {request : CompileRequest} {ds : List RawDiagnostic}
    (h : moment ∈ (Followed.compile .plain e).moments s) (hdeed : moment.deed = .ordered request)
    (hanswer : ((e.compiler request).run moment.state.world).1 = .ok ds) :
    request.source = (e.unit s).text ∧
      (hasErrors ds = true → (e.compile.run s).1 = (e.offsets s).errors ds) := by
  rw [Followed.moments_compile] at h
  obtain ⟨hsource, herrors⟩ := Followed.proceed_of_answer h hdeed hanswer
  refine ⟨hsource, fun hds => ?_⟩
  rw [← Followed.act_compile, Followed.run_compile, herrors hds]
  rfl

/-- A fault in the fragment that a line of the unit belongs to is told where a diagnostic at that line
is told. -/
def TellsLike (e : Engine τ ε) (s : EngineState τ ε) (inTrigger : Bool) (line : Nat) : Prop :=
  ∀ (fault : ScriptFault) (d : RawDiagnostic),
    fault.RaisedAt e.environment.config.entryType line → d.line = line →
    (e.formattedError fault inTrigger).run s =
      ({ (e.offsets s).locate d with column := 0, message := fault.message, number := "-1" }, s)

theorem tellsLike (e : Engine τ ε) (s : EngineState τ ε) {inTrigger : Bool} {line : Nat}
    (h : ((e.offsets s).classify line).1 = LineOffsets.running inTrigger) :
    e.TellsLike s inTrigger line := by
  intro fault d hfault hline
  rw [run_formattedError]
  rw [← hline] at h hfault
  rw [LineOffsets.formatFault_eq_locate _ hfault h]

theorem classify_main (e : Engine τ ε) (s : EngineState τ ε) {k : Nat}
    (hk : k < lineCount s.program.scriptSource) :
    (e.offsets s).classify ((e.unit s).mainOffset + k : Nat) = (.mainBody, (k : Int)) := by
  rw [offsets, unit]
  exact Template.classify_main e.environment.template _ s.program.scriptSetup hk

theorem classify_trigger (e : Engine τ ε) (s : EngineState τ ε) (k : Nat) :
    (e.offsets s).classify ((e.unit s).triggerLine + k : Nat) = (.triggerCondition, (k : Int)) := by
  rw [offsets, unit]
  exact Template.classify_trigger e.environment.template _ s.program.scriptSetup k

end Engine

section Lamp

end Lamp

end Automation
