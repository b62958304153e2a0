import Automation.Proofs.Compiler.Reporting
import Automation.Proofs.Engine.Compiling

/-
Compiles whose tool tells of a problem.

Only the first octets of what a tool writes are kept.  A problem in a line that ends among them is an
error of the compile, whatever else the tool does, and so nothing is committed.  A problem behind them
is lost, and the compile of a tool that ends well with an artifact goes through.
-/

namespace Automation

/-- What runs tools to their end. -/
abbrev ToolProcess (τ : Type) := ToolOrder → Act τ (Except Failure Finished)

namespace ToolProcess

variable {τ : Type}

/-- The runner that keeps the first octets of the outputs. -/
def runner (tool : ToolProcess τ) : ToolRunner τ := fun order => do
  pure ((← tool order).map (ToolOutput.ofFinished order.outputLimit))

/-- Run a tool in the working directory. -/
def spawned : ToolProcess τ := fun order w =>
  let t := w.host.files
  let spawn : Spawn :=
    ⟨order.program, order.arguments, [], ⟨FileTree.locationText t.workingDirectory⟩⟩
  match spawn.start t (w.host.processes.self + 1) with
  | .error e => (.error ⟨[.spawn order.program], .os e⟩, w)
  | .ok behaviour =>
      let started := Behaviour.pause 0 fun _ => behaviour
      let finished := started.run order.timeoutMillis 0 .nothing t
      (.ok finished, w.withFiles finished.files)

theorem runner_spawned : (spawned : ToolProcess τ).runner = runTool := by
  funext order w
  change (Except.map _ (spawned order w).1, (spawned order w).2) = runTool order w
  simp only [spawned, runTool]
  generalize Spawn.start _ _ _ = started
  cases started <;> rfl

theorem exists_finished_of_runner {tool : ToolProcess τ} {order : ToolOrder} {w : World τ}
    {output : ToolOutput} (h : ((tool.runner order).run w).1 = .ok output) :
    ∃ f, ((tool order).run w).1 = .ok f ∧ output = .ofFinished order.outputLimit f := by
  change ((tool order).run w).1.map _ = _ at h
  cases hf : ((tool order).run w).1 with
  | error e =>
      rw [hf] at h
      cases h
  | ok f =>
      rw [hf] at h
      exact ⟨f, rfl, (Except.ok.inj h).symm⟩

end ToolProcess

/-- What a finished process has written to its output. -/
def Finished.stdout (f : Finished) : ByteArray := Surroundings.joined f.output

namespace CommandCompiler

variable {τ : Type} {c : CommandCompiler} {tool : ToolProcess τ} {request : CompileRequest}
  {w : World τ} {f : Finished} {ds : List RawDiagnostic}

/-- Put the source where the tool finds it. -/
def writeSource (request : CompileRequest) : FileTask Unit :=
  FileTask.during (.writeSource (sourcePath request))
    (FileAction.perform (.write (sourcePath request) request.source.toUTF8))

/-- To compile a request in a world the tool is run, and this is what it leaves. -/
def Runs (c : CommandCompiler) (tool : ToolProcess τ) (request : CompileRequest) (w : World τ)
    (f : Finished) : Prop :=
  ∃ program words, c.command = program :: words ∧
    ((Act.task (writeSource request)).run w).1 = .ok () ∧
    ((tool (c.order program words request)).run ((Act.task (writeSource request)).run w).2).1 =
      .ok f

theorem Runs.unique {f' : Finished} (h : c.Runs tool request w f) (h' : c.Runs tool request w f') :
    f = f' := by
  obtain ⟨program, words, hcommand, -, hf⟩ := h
  obtain ⟨program', words', hcommand', -, hf'⟩ := h'
  rw [hcommand] at hcommand'
  cases hcommand'
  rw [hf] at hf'
  exact Except.ok.inj hf'

/-- The judgement on a tool is clean exactly when it ended well, left an artifact, and told of no
problem in the octets that are kept. -/
theorem judge_ofFinished_iff {limit : Nat} {hasArtifact : Bool} :
    (∃ ds, c.judge request (.ofFinished limit f) hasArtifact = .ok ds ∧ hasErrors ds = false) ↔
      f.ending = .exited 0 ∧ hasArtifact = true ∧ ¬Reports (f.stdout.extract 0 limit) := by
  have hkept : (ToolOutput.ofFinished limit f).stdout = f.stdout.extract 0 limit :=
    kept_capture limit f.output
  have hending : (ToolOutput.ofFinished limit f).ending = f.ending := rfl
  rw [← hasErrors_parseDiagnostics_iff, judge, hkept]
  generalize parseDiagnostics (Text.lossy (f.stdout.extract 0 limit)) = kept
  simp only [ToolOutput.timedOut, ToolOutput.success, ToolOutput.code?, hending]
  cases f.ending with
  | timedOut => simp
  | signalled signal => cases herrors : hasErrors kept <;> simp [herrors]
  | exited code =>
      cases herrors : hasErrors kept
      · by_cases hcode : code = 0 <;> cases hasArtifact <;> simp [hcode, herrors]
      · simp [herrors]

/-- A compile without errors has run its tool, which ended well and told of no problem in the octets
that are kept. -/
theorem exists_runs_of_clean (h : ((Compiler.command tool.runner c request).run w).1 = .ok ds)
    (hclean : hasErrors ds = false) :
    ∃ f, c.Runs tool request w f ∧ f.ending = .exited 0 ∧
      ¬Reports (f.stdout.extract 0 c.outputLimit) := by
  rw [Compiler.command] at h
  split at h
  · cases h
  · next program words hcommand =>
    dsimp only at h
    rw [Act.run_bind] at h
    split at h
    · cases h
    · next hwritten =>
      rw [Act.run_bind, Act.run_bind] at h
      split at h
      · cases h
      · split at h
        · cases h
        · next output houtput =>
          obtain ⟨f, hf, rfl⟩ := ToolProcess.exists_finished_of_runner houtput
          obtain ⟨hending, -, hsilent⟩ := judge_ofFinished_iff.mp ⟨ds, h, hclean⟩
          exact ⟨f, ⟨program, words, hcommand, hwritten, hf⟩, hending, hsilent⟩

/-- A problem in a line that ends within the limit is an error. -/
theorem hasErrors_of_reportsWithin (hruns : c.Runs tool request w f)
    (hreports : ReportsWithin c.outputLimit f.stdout)
    (h : ((Compiler.command tool.runner c request).run w).1 = .ok ds) : hasErrors ds = true := by
  by_contra hclean
  obtain ⟨f', hruns', -, hsilent⟩ := exists_runs_of_clean h (Bool.eq_false_iff.mpr hclean)
  rw [hruns'.unique hruns] at hsilent
  exact hsilent hreports.extract

end CommandCompiler

namespace Followed

variable {τ ε : Type} {d : Disk τ} {e : Engine τ ε} {job : CompileJob} {staged : Path}
  {errors : List ProgramError} {s : EngineState τ ε}

theorem errors_ne_nil {offsets : LineOffsets} {ds : List RawDiagnostic}
    (h : hasErrors ds = true) : offsets.errors ds ≠ [] := by
  obtain ⟨d, hd, herror⟩ := List.any_eq_true.mp h
  exact List.ne_nil_of_mem (List.mem_map_of_mem (List.mem_filter.mpr ⟨hd, herror⟩))

/-- A compiler that does not answer without errors makes a compile fail. -/
theorem invokeCompiler_ne_nil
    (h : ∀ ds, ((e.compiler (e.compileRequest job
      (e.environment.template.compose job.source job.trigger) staged)).run s.world).1 = .ok ds →
        hasErrors ds = true) :
    ((invokeCompiler e job staged).act.run s).1 ≠ [] := by
  rw [invokeCompiler, act_bind, EngineAct.run_bind]
  split
  · exact failureErrors_ne_nil _
  · next ds hds => exact errors_ne_nil (h ds hds)

/-- With errors nothing is committed. -/
theorem settle_of_ne_nil (d : Disk τ) (e : Engine τ ε) (job : CompileJob) (staged : Path)
    (s : EngineState τ ε) (h : errors ≠ []) :
    ((settle d e job staged errors).act.run s).1 = errors ∧
      (settle d e job staged errors).moments s = [] := by
  have hempty : (!errors.isEmpty) = true := by simpa using h
  rw [settle, if_pos hempty]
  exact ⟨rfl, rfl⟩

/-- What others learn of the compiler is its order, given as things stand, and warnings. -/
theorem mem_moments_invokeCompiler {moment : CompileMoment τ ε}
    (h : moment ∈ (invokeCompiler e job staged).moments s) :
    moment = ⟨.ordered (e.compileRequest job
        (e.environment.template.compose job.source job.trigger) staged), s⟩ ∨
      ∃ notice, moment.deed = .warned notice := by
  rw [invokeCompiler, moments_bind] at h
  rcases List.mem_append.mp h with hordered | hlater
  · exact .inl (List.mem_singleton.mp hordered)
  · right
    split at hlater
    · cases hlater
    · rcases List.mem_append.mp hlater with hwarned | hnone
      · have htells : ∀ warnings : List ProgramError, Tells
            (fun deed => ∃ notice, deed = .warned notice)
            (warnings.forM fun w => warning (Engine.warningNotice job.address w) :
              Followed τ ε Unit) := fun warnings => tells_warnings fun notice => ⟨notice, rfl⟩
        exact htells _ _ _ hwarned
      · cases hnone

theorem mem_moments_settle {moment : CompileMoment τ ε}
    (h : moment ∈ (settle d e job staged errors).moments s) :
    ∃ steps, moment.deed = .committed staged steps := by
  rw [settle] at h
  split at h
  · cases h
  · rw [moments_bind] at h
    rcases List.mem_append.mp h with hcommitted | hlater
    · exact ⟨_, congrArg CompileMoment.deed (List.mem_singleton.mp hcommitted)⟩
    · split at hlater <;> cases hlater

/-- A compile whose compiler does not answer without errors fails, and commits nothing. -/
theorem proceed_of_problem {moment : CompileMoment τ ε} {request : CompileRequest}
    (hmoment : moment ∈ (proceed d e job).moments s) (hdeed : moment.deed = .ordered request)
    (hproblem : ∀ ds, ((e.compiler request).run moment.state.world).1 = .ok ds →
      hasErrors ds = true) :
    ((proceed d e job).act.run s).1 ≠ [] ∧
      ∀ moment ∈ (proceed d e job).moments s, ∀ staged steps,
        moment.deed ≠ .committed staged steps := by
  rw [proceed, moments_bind, moments_quietly, List.nil_append] at hmoment ⊢
  rw [act_bind, EngineAct.run_bind]
  split at hmoment
  · cases hmoment
  · next staged hstaged =>
    generalize ((quietly (EngineAct.inWorld (d.stage e job.address))).act.run s).2 = ready
      at hmoment ⊢
    have hordered : moment = ⟨.ordered (e.compileRequest job
        (e.environment.template.compose job.source job.trigger) staged), ready⟩ := by
      rcases List.mem_append.mp hmoment with hinvoked | hsettled
      · refine (mem_moments_invokeCompiler hinvoked).resolve_right ?_
        rintro ⟨notice, hwarned⟩
        cases hdeed.symm.trans hwarned
      · obtain ⟨steps, hcommitted⟩ := mem_moments_settle hsettled
        cases hdeed.symm.trans hcommitted
    subst hordered
    cases hdeed
    have hne := invokeCompiler_ne_nil hproblem
    obtain ⟨herrors, hnone⟩ := settle_of_ne_nil d e job staged
      ((invokeCompiler e job staged).act.run ready).2 hne
    refine ⟨?_, fun later hlater other steps hcommitted => ?_⟩
    · rw [act_bind, EngineAct.run_bind, herrors]
      exact hne
    · rw [moments_bind, hnone, List.append_nil] at hlater
      rcases mem_moments_invokeCompiler hlater with rfl | ⟨notice, hwarned⟩
      · cases hcommitted
      · cases hwarned.symm.trans hcommitted

end Followed

/-- A compile whose tool tells of a problem within the limit does not go through.  What a finished tool
leaves is judged clean exactly when it ended well, left an artifact, and told of no problem in the
octets that are kept.  So a problem in a line that ends within the limit is an error of the compiler,
whatever the tool writes besides and however it ends; and an engine that has ordered such a compile
has errors, has not tried to commit, and has left what was published alone if its tool has. -/
theorem Engine.reported_problems_are_not_committed {τ ε : Type} (tool : ToolProcess τ)
    (c : CommandCompiler) :
    (∀ request f hasArtifact,
      (∃ ds, c.judge request (.ofFinished c.outputLimit f) hasArtifact = .ok ds ∧
        hasErrors ds = false) ↔
      f.ending = .exited 0 ∧ hasArtifact = true ∧
        ¬Reports (f.stdout.extract 0 c.outputLimit)) ∧
    (∀ request w f, c.Runs tool request w f → ReportsWithin c.outputLimit f.stdout →
      ∀ ds, ((Compiler.command tool.runner c request).run w).1 = .ok ds → hasErrors ds = true) ∧
    ∀ (e : Engine τ ε) (d : Disk τ) (s : EngineState τ ε),
      e.compiler = .command tool.runner c →
      ∀ moment ∈ (Followed.compile d e).moments s, ∀ request f,
        moment.deed = .ordered request → c.Runs tool request moment.state.world f →
        ReportsWithin c.outputLimit f.stdout →
          ((Followed.compile d e).act.run s).1 ≠ [] ∧
          (∀ later ∈ (Followed.compile d e).moments s, ∀ staged steps,
            later.deed ≠ .committed staged steps) ∧
          (e.environment.store.WellNamed → e.compiler.StaysIn e.environment.store →
            e.environment.store.SamePublished s.program.address s.world.host.files
              ((Followed.compile d e).act.run s).2.world.host.files) := by
  refine ⟨fun _ _ _ => CommandCompiler.judge_ofFinished_iff,
    fun _ _ _ hruns hreports _ hds => CommandCompiler.hasErrors_of_reportsWithin hruns hreports hds,
    fun e d s he moment hmoment request f hdeed hruns hreports => ?_⟩
  have hproblem : ∀ ds, ((e.compiler request).run moment.state.world).1 = .ok ds →
      hasErrors ds = true := by
    rw [he]
    exact fun ds => CommandCompiler.hasErrors_of_reportsWithin hruns hreports
  rw [Followed.moments_compile] at hmoment
  obtain ⟨hne, hnone⟩ := Followed.proceed_of_problem hmoment hdeed hproblem
  refine ⟨hne, hnone, fun hs hstays => ?_⟩
  have hundo : ∀ later ∈ (Followed.compile d e).moments s, later.deed.Undoes := by
    intro later hlater
    cases hdeed : later.deed with
    | committed staged steps => exact absurd hdeed (hnone later hlater staged steps)
    | _ => trivial
  exact (Followed.undisturbed_compile hs hstays hundo hne).samePublished hs

section Chatter

variable {τ : Type}

/-- A line of chatter, and then a problem. -/
def chatter : ByteArray := "1\n\x7b\"message\":\"m\"\x7d".toUTF8

theorem reports_chatter : Reports chatter := by
  rw [← hasErrors_parseDiagnostics_iff]
  decide +kernel

/-- A tool that writes some octets and ends well. -/
def writing (octets : ByteArray) : ToolProcess τ := fun _ w =>
  (.ok ⟨.exited 0, [octets], [], w.host.files⟩, w)

/-- A compiler that keeps so many octets. -/
def keeping (limit : Nat) : CommandCompiler := ⟨["scriptc"], 1, limit⟩

/-- The lamp is compiled by a tool that writes a line of chatter before it tells of its problem. -/
def chattyEngine : Engine Surroundings Entry :=
  { lampEngine with compiler := .command (writing chatter).runner (keeping 18) }

theorem chatty_lamp_is_not_compiled :
    (∃ moment ∈ (Followed.compile .plain chattyEngine).moments lampAtWork, ∃ request f,
      moment.deed = .ordered request ∧
      (keeping 18).Runs (writing chatter) request moment.state.world f ∧
      ReportsWithin 18 f.stdout) ∧
    (chattyEngine.compile.run lampAtWork).1 ≠ [] ∧
    (chattyEngine.compile.run lampAtWork).2.world.host.files.node? ["programs", "lamp.unit.pdb"] =
      some (.file "old symbols".toUTF8 false) := by
  obtain ⟨-, -, hengine⟩ := @Engine.reported_problems_are_not_committed Surroundings Entry
    (writing chatter) (keeping 18)
  have hordered : ((Followed.compile .plain chattyEngine).moments lampAtWork).any (fun moment =>
      match moment.deed with
      | .ordered request =>
          ((Act.task (CommandCompiler.writeSource request)).run moment.state.world).1.isOk
      | _ => false) = true := by
    decide +kernel
  obtain ⟨moment, hmoment, hwritten⟩ := List.any_eq_true.mp hordered
  split at hwritten
  · next request hdeed =>
    have hdone : ((Act.task (CommandCompiler.writeSource request)).run moment.state.world).1 =
        .ok () := by
      cases hanswer : ((Act.task (CommandCompiler.writeSource request)).run
          moment.state.world).1 with
      | error f =>
          rw [hanswer] at hwritten
          cases hwritten
      | ok _ => rfl
    have hruns : (keeping 18).Runs (writing chatter) request moment.state.world
        ⟨.exited 0, [chatter], [], _⟩ := ⟨"scriptc", [], rfl, hdone, rfl⟩
    have hreports : ReportsWithin 18 (Surroundings.joined [chatter]) :=
      reports_chatter.within (by decide)
    obtain ⟨hne, -, hpublished⟩ := hengine chattyEngine .plain lampAtWork rfl moment hmoment request
      _ hdeed hruns hreports
    rw [← Followed.act_compile]
    refine ⟨⟨moment, hmoment, request, _, hdeed, hruns, hreports⟩, hne, ?_⟩
    have hnamed : chattyEngine.environment.store.WellNamed :=
      ArtifactStore.wellNamed_ofConfig (by decide)
    have hstays : chattyEngine.compiler.StaysIn chattyEngine.environment.store :=
      Compiler.command_staysIn _ hnamed fun _ _ _ _ _ => .refl _ _ _
    exact lamp_keeps_its_symbols (hpublished hnamed hstays)
  · cases hwritten

/-- A request to put an artifact where there is one already. -/
def chattyRequest : CompileRequest := ⟨"lamp", "", none, ⟨"o"⟩, []⟩

/-- An artifact is there. -/
def artifactWorld : World Unit where
  host :=
    { files := { workingDirectory := [], entries := [(["o"], .file "new".toUTF8 false)] }
      processes := ⟨1, []⟩
      now := ⟨0, 0⟩
      fresh := 0 }
  outside := ()

/-- When only the first two octets are kept, the problem behind them is lost, and the compile is as
good as one without problems. -/
theorem late_problem_goes_unseen :
    ∃ f, (keeping 2).Runs (writing chatter) chattyRequest artifactWorld f ∧ Reports f.stdout ∧
      ((Compiler.command (writing chatter).runner (keeping 2) chattyRequest).run
        artifactWorld).1.toOption = some [] :=
  ⟨_, ⟨"scriptc", [], rfl, rfl, rfl⟩, reports_chatter, by decide +kernel⟩

end Chatter

end Automation
