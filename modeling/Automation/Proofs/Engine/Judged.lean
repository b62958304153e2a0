import Automation.Proofs.Engine.Reported

/-
What the run of a compiler tool amounts to.

A tool that was not started or had to be stopped is a failure, whatever it wrote.  Otherwise an error
that it told of is an answer, whatever else it did; without one it has to have ended well and left an
artifact.  So what an engine commits has been left by a tool that did all of that.
-/

namespace Automation

open FileAction

namespace FileTree

variable {t t' : FileTree} {p : Path}

/-- A path leads nowhere once its file has been unlinked. -/
theorem exists?_of_unlink (h : t.unlink p = .ok t') : t'.exists? p = false := by
  obtain ⟨l, content, executable, hlocate, hfile, rfl⟩ := unlink_ok h
  have hroot : l ≠ [] := by
    rintro rfl
    rw [node?_root] at hfile
    cases hfile
  apply exists?_eq_false
  intro m hm
  have hsame : m = l := (destination_of_locate hm).trans (destination_of_locate hlocate).symm
  rw [node?_erase_of_ne hroot, if_pos hsame]

theorem exists?_of_unlink_noEntry (h : t.unlink p = .error .noEntry) : t.exists? p = false := by
  apply exists?_eq_false
  intro l hlocate
  rw [unlink, hlocate] at h
  cases hnode : t.node? l with
  | none => rfl
  | some n => cases n <;> simp [hnode] at h

end FileTree

/-- A path leads nowhere once what was there has been removed. -/
theorem ArtifactStore.meets_removeIfExists (p : Path) :
    FileTask.Meets (fun _ => True) (removeIfExists p) (fun _ t => t.exists? p = false)
      fun _ => True := by
  apply FileTask.meets_during
  have hunlink : Meets (fun _ => True) (perform (.unlink p)) fun result t =>
      result = .ok () ∨ result = .error .noEntry → t.exists? p = false := by
    apply meets_perform
    · exact fun t t' _ hok _ => FileTree.exists?_of_unlink hok
    · rintro t e - herror (hresult | hresult)
      · cases hresult
      · cases hresult
        exact FileTree.exists?_of_unlink_noEntry herror
  apply hunlink.bind
  rintro (e | _)
  · by_cases he : e = .noEntry
    · subst he
      exact meets_pure fun t ht => ht (.inr rfl)
    · split
      · next heq => exact absurd (Except.error.inj heq) he
      · exact meets_pure fun _ _ => trivial
  · exact meets_pure fun t ht => ht (.inl rfl)

theorem Act.run_task {τ α : Type} (t : FileTask α) (w : World τ) :
    (Act.task t).run w = ((t.run.run w.host.files).1, w.withFiles (t.run.run w.host.files).2) := rfl

/-- The diagnostics that a tool has written. -/
def ToolOutput.diagnostics (output : ToolOutput) : List RawDiagnostic :=
  parseDiagnostics (Text.lossy output.stdout)

namespace CommandCompiler

/-- What the run of a tool amounts to, given the files that it has left. -/
inductive Judges (c : CommandCompiler) (request : CompileRequest) (left : FileTree) :
    Except Failure ToolOutput → Except Failure (List RawDiagnostic) → Prop where
  /-- It could not be started. -/
  | notStarted (f : Failure) : c.Judges request left (.error f) (.error (f.within .runCompiler))
  /-- It had to be stopped. -/
  | stopped {output : ToolOutput} (ending : output.ending = .timedOut) :
      c.Judges request left (.ok output) (.error (.ofCause (.timedOut c.timeoutSecs)))
  /-- It told of an error. -/
  | reported {output : ToolOutput} (ending : output.ending ≠ .timedOut)
      (errors : ∃ d ∈ output.diagnostics, d.warning = false) :
      c.Judges request left (.ok output) (.ok output.diagnostics)
  /-- It failed without telling of an error. -/
  | failed {output : ToolOutput} (ending : output.ending ≠ .timedOut)
      (warnings : ∀ d ∈ output.diagnostics, d.warning = true) (status : output.ending ≠ .exited 0) :
      c.Judges request left (.ok output)
        (.error (.ofCause (.compilerFailed output.code? (Text.trim (Text.lossy output.stderr)))))
  /-- It ended well and left no artifact. -/
  | noArtifact {output : ToolOutput} (status : output.ending = .exited 0)
      (warnings : ∀ d ∈ output.diagnostics, d.warning = true)
      (missing : left.isFile request.outputPath = false) :
      c.Judges request left (.ok output) (.error (.ofCause (.noArtifact request.outputPath)))
  /-- It ended well and left an artifact. -/
  | compiled {output : ToolOutput} (status : output.ending = .exited 0)
      (warnings : ∀ d ∈ output.diagnostics, d.warning = true)
      (artifact : left.isFile request.outputPath = true) :
      c.Judges request left (.ok output) (.ok output.diagnostics)

theorem hasErrors_iff {ds : List RawDiagnostic} :
    hasErrors ds = true ↔ ∃ d ∈ ds, d.warning = false := by
  simp [hasErrors]

theorem hasErrors_eq_false_iff {ds : List RawDiagnostic} :
    hasErrors ds = false ↔ ∀ d ∈ ds, d.warning = true := by
  simp [hasErrors]

section Judge

variable {c : CommandCompiler} {request : CompileRequest} {left : FileTree}

/-- A tool that was started is judged in one of these ways. -/
theorem judges_judge (output : ToolOutput) :
    c.Judges request left (.ok output)
      (c.judge request output (left.isFile request.outputPath)) := by
  have hstopped : output.timedOut = true ↔ output.ending = .timedOut := by
    simp [ToolOutput.timedOut]
  have hstatus : output.success = true ↔ output.ending = .exited 0 := by
    rw [ToolOutput.success, ToolOutput.code?]
    cases output.ending <;> simp
  rw [judge, ← ToolOutput.diagnostics]
  by_cases hending : output.timedOut = true
  · rw [if_pos hending]
    exact .stopped (hstopped.mp hending)
  rw [if_neg hending]
  have hnot : output.ending ≠ .timedOut := fun h => hending (hstopped.mpr h)
  dsimp only
  cases herrors : hasErrors output.diagnostics with
  | true => exact .reported hnot (hasErrors_iff.mp herrors)
  | false =>
      have hwarnings := hasErrors_eq_false_iff.mp herrors
      cases hsuccess : output.success with
      | false => exact .failed hnot hwarnings fun h => by simp [hstatus.mpr h] at hsuccess
      | true =>
          cases hfile : left.isFile request.outputPath with
          | false => exact .noArtifact (hstatus.mp hsuccess) hwarnings hfile
          | true => exact .compiled (hstatus.mp hsuccess) hwarnings hfile

/-- A tool whose answer has no errors ended well, told of warnings only, and left an artifact. -/
theorem Judges.of_clean {result : Except Failure ToolOutput} {ds : List RawDiagnostic}
    (h : c.Judges request left result (.ok ds)) (hclean : hasErrors ds = false) :
    ∃ output, result = .ok output ∧ output.ending = .exited 0 ∧
      (∀ d ∈ output.diagnostics, d.warning = true) ∧ left.isFile request.outputPath = true := by
  cases h with
  | reported ending errors =>
      rw [hasErrors_iff.mpr errors] at hclean
      cases hclean
  | compiled status warnings artifact => exact ⟨_, rfl, status, warnings, artifact⟩

end Judge

section Completes

variable {τ : Type} {run : ToolRunner τ} {c : CommandCompiler} {request : CompileRequest}
  {w now : World τ} {result : Except Failure ToolOutput}

/-- The source could be written, the tool was run with it and came to a result, and the source could be
removed again. -/
def Completes (run : ToolRunner τ) (c : CommandCompiler) (request : CompileRequest) (w : World τ)
    (result : Except Failure ToolOutput) (now : World τ) : Prop :=
  ∃ program words ready after, c.command = program :: words ∧
    (Act.task (writeSource request)).run w = (.ok (), ready) ∧
    (run (c.order program words request)).run ready = (result, after) ∧
    (Act.task (ArtifactStore.removeIfExists (sourcePath request))).run after = (.ok (), now)

/-- The source is gone afterwards. -/
theorem Completes.noSource (h : c.Completes run request w result now) :
    now.host.files.exists? (sourcePath request) = false := by
  obtain ⟨program, words, ready, after, -, -, -, hremoved⟩ := h
  have hmeets := (ArtifactStore.meets_removeIfExists (sourcePath request)).run
    after.host.files trivial
  rw [Act.run_task] at hremoved
  obtain ⟨hresult, rfl⟩ := Prod.mk.inj hremoved
  rw [hresult] at hmeets
  exact hmeets

/-- The answer is the judgement on the tool, and nothing is touched after the source is removed. -/
theorem Completes.judges (h : c.Completes run request w result now) :
    ∃ verdict, (Compiler.command run c request).run w = (verdict, now) ∧
      c.Judges request now.host.files result verdict := by
  obtain ⟨program, words, ready, after, hcommand, hwritten, hran, hremoved⟩ := h
  rw [Compiler.command, hcommand]
  dsimp only
  rw [Act.run_bind, ← writeSource, hwritten]
  dsimp only
  rw [Act.run_bind, hran, Act.run_bind, hremoved]
  dsimp only
  cases result with
  | error f => exact ⟨_, rfl, .notStarted f⟩
  | ok output => exact ⟨_, rfl, judges_judge output⟩

/-- Any answer has come in that way. -/
theorem exists_completes {ds : List RawDiagnostic}
    (h : ((Compiler.command run c request).run w).1 = .ok ds) :
    ∃ result now, c.Completes run request w result now := by
  rw [Compiler.command] at h
  split at h
  · cases h
  · next program words hcommand =>
    dsimp only at h
    rw [Act.run_bind, ← writeSource] at h
    split at h
    · cases h
    · next hwritten =>
      rw [Act.run_bind, Act.run_bind] at h
      split at h
      · cases h
      · next hremoved =>
        exact ⟨_, _, program, words, _, _, hcommand, Prod.ext hwritten rfl, rfl,
          Prod.ext hremoved rfl⟩

/-- The run of a tool that has done all that it takes for its artifact to be committed. -/
structure Accepts (run : ToolRunner τ) (c : CommandCompiler) (request : CompileRequest) (w : World τ)
    (output : ToolOutput) (now : World τ) : Prop where
  completes : c.Completes run request w (.ok output) now
  status : output.ending = .exited 0
  warnings : ∀ d ∈ output.diagnostics, d.warning = true
  artifact : now.host.files.isFile request.outputPath = true

/-- A compiler that answers without errors has run such a tool. -/
theorem exists_accepts {ds : List RawDiagnostic}
    (h : (Compiler.command run c request).run w = (.ok ds, now)) (hclean : hasErrors ds = false) :
    ∃ output, c.Accepts run request w output now := by
  obtain ⟨result, later, hcompletes⟩ := exists_completes (congrArg Prod.fst h)
  obtain ⟨verdict, hrun, hjudges⟩ := hcompletes.judges
  rw [h] at hrun
  obtain ⟨rfl, rfl⟩ := Prod.mk.inj hrun
  obtain ⟨output, rfl, hstatus, hwarnings, hartifact⟩ := hjudges.of_clean hclean
  exact ⟨output, hcompletes, hstatus, hwarnings, hartifact⟩

end Completes

end CommandCompiler

/-- How a compile goes: with errors and without a commit, or with a commit of what the compiler has left
and answered without errors. -/
inductive CompileCourse {τ ε : Type} (e : Engine τ ε) :
    List (CompileMoment τ ε) → List ProgramError → Prop where
  | fails {moments : List (CompileMoment τ ε)} {errors : List ProgramError}
      (uncommitted : ∀ moment ∈ moments, ∀ staged steps, moment.deed ≠ .committed staged steps)
      (ne : errors ≠ []) : CompileCourse e moments errors
  | commits {ordered committed : CompileMoment τ ε} {warned : List (CompileMoment τ ε)}
      {request : CompileRequest} {steps : List FileEvent} {ds : List RawDiagnostic}
      {errors : List ProgramError}
      (order : ordered.deed = .ordered request)
      (warnings : ∀ moment ∈ warned, ∃ notice, moment.deed = .warned notice)
      (commit : committed.deed = .committed request.outputPath steps)
      (answer : (e.compiler request).run ordered.state.world = (.ok ds, committed.state.world))
      (clean : hasErrors ds = false) :
      CompileCourse e (ordered :: (warned ++ [committed])) errors

namespace Followed

variable {τ ε : Type} {d : Disk τ} {e : Engine τ ε} {job : CompileJob} {staged : Path}
  {s : EngineState τ ε}

/-- Others learn of the order first, and then of warnings. -/
theorem moments_invokeCompiler (e : Engine τ ε) (job : CompileJob) (staged : Path)
    (s : EngineState τ ε) :
    ∃ warned, (invokeCompiler e job staged).moments s =
        ⟨.ordered (e.compileRequest job
          (e.environment.template.compose job.source job.trigger) staged), s⟩ :: warned ∧
      ∀ moment ∈ warned, ∃ notice, moment.deed = .warned notice := by
  rw [invokeCompiler, moments_bind]
  refine ⟨_, List.singleton_append, fun moment hmoment => ?_⟩
  split at hmoment
  · cases hmoment
  · rcases List.mem_append.mp hmoment with hwarned | hnone
    · have htells : ∀ warnings : List ProgramError, Tells
          (fun deed => ∃ notice, deed = .warned notice)
          (warnings.forM fun w => warning (Engine.warningNotice job.address w) :
            Followed τ ε Unit) := fun warnings => tells_warnings fun notice => ⟨notice, rfl⟩
      exact htells _ _ _ hwarned
    · cases hnone

/-- Where there are no errors, the compiler has answered without any. -/
theorem invokeCompiler_nil (h : ((invokeCompiler e job staged).act.run s).1 = []) :
    ∃ ds, (e.compiler (e.compileRequest job
        (e.environment.template.compose job.source job.trigger) staged)).run s.world =
          (.ok ds, ((invokeCompiler e job staged).act.run s).2.world) ∧ hasErrors ds = false := by
  rw [invokeCompiler, act_bind, EngineAct.run_bind] at h ⊢
  split at h
  · exact absurd h (failureErrors_ne_nil _)
  · next ds hds =>
    refine ⟨ds, Prod.ext hds ?_, ?_⟩
    · change _ = ((List.forM _ _ : Followed τ ε Unit).act.run _).2.world
      rw [world_warnings]
      rfl
    · cases herrors : hasErrors ds with
      | false => rfl
      | true => exact absurd h (errors_ne_nil herrors)

theorem course_proceed (d : Disk τ) (e : Engine τ ε) (job : CompileJob) (s : EngineState τ ε) :
    CompileCourse e ((proceed d e job).moments s) ((proceed d e job).act.run s).1 := by
  rw [proceed, moments_bind, moments_quietly, List.nil_append, act_bind, EngineAct.run_bind]
  split
  · exact .fails (by simp) (failureErrors_ne_nil _)
  · next staged hstaged =>
    generalize ((quietly (EngineAct.inWorld (d.stage e job.address))).act.run s).2 = ready
    obtain ⟨warned, hmoments, hwarned⟩ := moments_invokeCompiler e job staged ready
    rw [moments_bind, act_bind, EngineAct.run_bind, hmoments]
    by_cases hnil : ((invokeCompiler e job staged).act.run ready).1 = []
    · obtain ⟨ds, hanswer, hclean⟩ := invokeCompiler_nil hnil
      have hsettled : ∀ now : EngineState τ ε, (settle d e job staged []).moments now =
          [⟨.committed staged (d.steps (e.environment.store.commit staged job.address) now.world),
            now⟩] := by
        intro now
        rw [settle, if_neg (by simp), moments_bind]
        refine congrArg (List.cons _) ?_
        split <;> rfl
      rw [hnil, hsettled]
      exact .commits rfl hwarned rfl hanswer hclean
    · obtain ⟨herrors, hnone⟩ := settle_of_ne_nil d e job staged
        ((invokeCompiler e job staged).act.run ready).2 hnil
      rw [hnone, herrors, List.append_nil]
      refine .fails (fun moment hmoment other steps hcommitted => ?_) hnil
      rcases List.mem_cons.mp hmoment with rfl | hmoment
      · cases hcommitted
      · obtain ⟨notice, hnotice⟩ := hwarned moment hmoment
        cases hnotice.symm.trans hcommitted

theorem course_compile (d : Disk τ) (e : Engine τ ε) (s : EngineState τ ε) :
    CompileCourse e ((compile d e).moments s) ((compile d e).act.run s).1 := by
  rw [moments_compile, run_compile]
  exact course_proceed d e s.job s.begun

end Followed

namespace CompileCourse

variable {τ ε : Type} {e : Engine τ ε} {moments : List (CompileMoment τ ε)}
  {errors : List ProgramError}

/-- What is committed is what the compiler has been ordered to make before, and has answered for without
errors. -/
theorem exists_ordered (h : CompileCourse e moments errors) {before after : List (CompileMoment τ ε)}
    {committed : CompileMoment τ ε} (hmoments : moments = before ++ committed :: after)
    {staged : Path} {steps : List FileEvent} (hdeed : committed.deed = .committed staged steps) :
    ∃ ordered ∈ before, ∃ request ds, ordered.deed = .ordered request ∧
      request.outputPath = staged ∧
      (e.compiler request).run ordered.state.world = (.ok ds, committed.state.world) ∧
      hasErrors ds = false := by
  cases h with
  | fails uncommitted ne =>
      have hmem : committed ∈ moments := by simp [hmoments]
      exact absurd hdeed (uncommitted committed hmem staged steps)
  | @commits ordered last warned request lastSteps ds errors order warnings commit answer clean =>
      have hmem : committed = ordered ∨ committed ∈ warned ∨ committed = last := by
        have hmem : committed ∈ ordered :: (warned ++ [last]) := by simp [hmoments]
        simpa using hmem
      rcases hmem with rfl | hwarned | rfl
      · cases order.symm.trans hdeed
      · obtain ⟨notice, hnotice⟩ := warnings committed hwarned
        cases hnotice.symm.trans hdeed
      · cases before with
        | nil =>
            cases (List.cons.inj hmoments).1
            cases order.symm.trans hdeed
        | cons first others =>
            obtain ⟨rfl, -⟩ := List.cons.inj hmoments
            cases commit.symm.trans hdeed
            exact ⟨ordered, List.mem_cons_self, request, ds, order, rfl, answer, clean⟩

/-- A compile without errors has committed something. -/
theorem ne_nil_of_uncommitted (h : CompileCourse e moments errors)
    (huncommitted : ∀ moment ∈ moments, ∀ staged steps, moment.deed ≠ .committed staged steps) :
    errors ≠ [] := by
  cases h with
  | fails uncommitted ne => exact ne
  | @commits ordered committed warned request steps ds errors order warnings commit answer clean =>
      have hmem : committed ∈ ordered :: (warned ++ [committed]) := by simp
      exact absurd commit (huncommitted committed hmem _ _)

end CompileCourse

section Lamp

/-- A tool that leaves an artifact and warns of something. -/
def buildingTool : ToolRunner Surroundings := fun order w =>
  (.ok ⟨.exited 0, "\x7b\"message\":\"m\",\"warning\":true\x7d".toUTF8, .empty, 0⟩,
    match order.arguments with
    | [_, "--out", output] =>
        ((Act.files (perform (.write ⟨output⟩ "new".toUTF8)) : Act Surroundings _).run w).2
    | _ => w)

/-- The lamp is compiled by that tool. -/
def buildingEngine : Engine Surroundings Entry :=
  { lampEngine with compiler := .command buildingTool (keeping 64) }

/-- Nothing is in the way of the artifact of the lamp. -/
def lampInOrder : EngineState Surroundings Entry :=
  { lampAtWork with world := lampAtWork.world.withFiles ⟨[], [(["programs"], .directory)]⟩ }

theorem buildingEngine_wellNamed : buildingEngine.environment.store.WellNamed :=
  ArtifactStore.wellNamed_ofConfig (by decide)

theorem buildingEngine_staysIn :
    buildingEngine.compiler.StaysIn buildingEngine.environment.store := by
  apply Compiler.command_staysIn _ buildingEngine_wellNamed
  intro program words request w hstaged
  change buildingEngine.environment.store.Undisturbed _ _ (match words ++
      [(CommandCompiler.sourcePath request).text, "--out", request.outputPath.text] ++
        request.references.flatMap fun reference => ["--reference", reference] with
    | [_, "--out", output] =>
        ((Act.files (perform (.write ⟨output⟩ "new".toUTF8)) : Act Surroundings _).run w).2
    | _ => w).host.files
  split
  · next first output harguments =>
    -- three words are those of the order itself
    have hwords : words = [] := by
      have hlength := congrArg List.length harguments
      simp only [List.length_append, List.length_cons, List.length_nil] at hlength
      exact List.eq_nil_of_length_eq_zero (by omega)
    subst hwords
    obtain ⟨-, rfl, -⟩ : (CommandCompiler.sourcePath request).text = first ∧
        request.outputPath.text = output ∧ ∀ x, x ∉ request.references := by
      simpa using harguments
    have htries := Compiler.tries_write buildingEngine_wellNamed hstaged
      (show '/' ∉ "".toList by decide) "new".toUTF8
    rw [Compiler.append_empty] at htries
    exact ArtifactStore.undisturbed_of_history htries (history_run _ _)
  · exact .refl _ _ _

end Lamp

end Automation
