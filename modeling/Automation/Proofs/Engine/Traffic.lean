import Automation.Proofs.Engine.Loading
import Automation.Proofs.Loading.Traffic

/-
What an engine says to its units.

The traffic of an engine whose units run in processes of their own is read off its moments: when it
has opened a context it binds a unit, and when it asks a bound entry it calls the process.  Nothing
else that it does reaches a process.
-/

namespace Automation

/-- An engine whose units run in processes of their own. -/
structure ProcessEngine (τ : Type) where
  environment : Environment
  compiler : Compiler τ
  launcher : Launcher τ
  shadowDir : Path
  extension : String

namespace ProcessEngine

open EngineAct

variable {τ : Type} (p : ProcessEngine τ)

def engine : Engine τ IsolatedEntry :=
  ⟨p.environment, p.compiler, .isolated p.launcher p.shadowDir p.extension⟩

/-- What is said to units at a moment. -/
def trafficOf (moment : Moment τ IsolatedEntry) : List Traffic :=
  match moment.deed with
  | .asked request context =>
      (Overheard.call p.launcher context.entry request).traffic moment.state.world
  | .opened address _ =>
      (p.engine.request? moment).toList.flatMap fun request =>
        (Overheard.bindEntry p.launcher p.shadowDir p.extension request).traffic
          ((openContext address : EngineAct τ IsolatedEntry _).run moment.state).2.world

/-- What is said in an event. -/
def traffic (s : EngineState τ IsolatedEntry) (event : EngineEvent τ) : List Traffic :=
  ((event.watched p.engine).moments s).flatMap p.trafficOf

/-- What is said in a course of events. -/
def trafficThrough (s : EngineState τ IsolatedEntry) : List (EngineEvent τ) → List Traffic
  | [] => []
  | event :: rest => p.traffic s event ++ trafficThrough (event.next p.engine s) rest

theorem trafficOf_asked (request : Request) (context : BoundContext IsolatedEntry)
    (s : EngineState τ IsolatedEntry) : p.trafficOf ⟨.asked request context, s⟩ =
      (Overheard.call p.launcher context.entry request).traffic s.world := rfl

theorem trafficOf_opened {address : String} {generation : Generation}
    {s : EngineState τ IsolatedEntry} {request : BindRequest}
    (h : p.engine.request? ⟨.opened address generation, s⟩ = some request) :
    p.trafficOf ⟨.opened address generation, s⟩ =
      (Overheard.bindEntry p.launcher p.shadowDir p.extension request).traffic
        ((openContext address : EngineAct τ IsolatedEntry _).run s).2.world := by
  rw [trafficOf]
  dsimp only
  rw [h, Option.toList_some, List.flatMap_singleton]

theorem run_bindEntry (request : BindRequest) (w : World τ) :
    (p.engine.loader.bindEntry request).run w =
      (Overheard.bindEntry p.launcher p.shadowDir p.extension request).act.run w := by
  rw [Overheard.act_bindEntry]
  rfl

end ProcessEngine

namespace EngineAct

variable {τ ε α β : Type} (record : τ → List Dispatch)

/-- The act adds nothing to a record. -/
def IsSilent (act : EngineAct τ ε α) : Prop :=
  ∀ s, record (act.run s).2.world.outside = record s.world.outside

variable {record}

theorem isSilent_pure (value : α) : IsSilent record (pure value : EngineAct τ ε α) :=
  fun _ => rfl

theorem IsSilent.bind {act : EngineAct τ ε α} {f : α → EngineAct τ ε β}
    (hact : IsSilent record act) (hf : ∀ value, IsSilent record (f value)) :
    IsSilent record (act >>= f) :=
  fun s => (hf _ _).trans (hact s)

theorem isSilent_inWorld {act : Act τ α} (h : act.IsSilent record) :
    IsSilent record (inWorld act : EngineAct τ ε α) :=
  fun s => h s.world

theorem isSilent_files (action : FileAction α) :
    IsSilent record (inWorld (Act.files action) : EngineAct τ ε α) := fun _ => rfl

theorem isSilent_task (task : FileTask α) :
    IsSilent record (inWorld (Act.task task) : EngineAct τ ε (Except Failure α)) := fun _ => rfl

theorem isSilent_address : IsSilent record (address : EngineAct τ ε String) := fun _ => rfl

theorem isSilent_slot : IsSilent record (slot : EngineAct τ ε (Slot ε)) := fun _ => rfl

theorem isSilent_setSlot (current : Slot ε) :
    IsSilent record (setSlot current : EngineAct τ ε Unit) := fun _ => rfl

theorem isSilent_editProgram (f : ProgramBlock → ProgramBlock) :
    IsSilent record (editProgram f : EngineAct τ ε Unit) := fun _ => rfl

theorem isSilent_closeContext (address : String) (generation : Generation) :
    IsSilent record (closeContext address generation : EngineAct τ ε Unit) := fun _ => rfl

theorem isSilent_forM {values : List α} {act : α → EngineAct τ ε Unit}
    (h : ∀ value, IsSilent record (act value)) : IsSilent record (values.forM act) := by
  induction values with
  | nil => exact isSilent_pure _
  | cons value rest ih => exact (h value).bind fun _ => ih

end EngineAct

namespace Engine

open EngineAct

variable {τ ε : Type} {e : Engine τ ε} {record : τ → List Dispatch}

theorem isSilent_teardown (hrelease : ∀ entry, (e.loader.capabilities.release entry).IsSilent record) :
    e.teardown.IsSilent record := by
  refine isSilent_slot.bind fun current => (isSilent_setSlot _).bind fun _ => ?_
  cases current.context? with
  | none => exact isSilent_pure _
  | some context =>
      exact isSilent_address.bind fun _ => (isSilent_closeContext _ _).bind fun _ =>
        isSilent_inWorld (hrelease _)

theorem isSilent_dropOutdated
    (hrelease : ∀ entry, (e.loader.capabilities.release entry).IsSilent record) (address : String)
    (image : ArtifactImage) (context : BoundContext ε) :
    (e.dropOutdated address image context).IsSilent record := by
  refine IsSilent.bind (fun _ => rfl) fun live => ?_
  split
  · exact (isSilent_setSlot _).bind fun _ =>
      (isSilent_inWorld (hrelease _)).bind fun _ => isSilent_pure _
  · refine IsSilent.bind (fun _ => rfl) fun usable => ?_
    split
    · exact (isSilent_closeContext _ _).bind fun _ => (isSilent_setSlot _).bind fun _ =>
        (isSilent_inWorld (hrelease _)).bind fun _ => isSilent_pure _
    · exact isSilent_pure _

theorem isSilent_load (hrelease : ∀ entry, (e.loader.capabilities.release entry).IsSilent record) :
    e.load.IsSilent record := by
  intro s
  have hcleared : record (e.cleared s).world.outside = record s.world.outside := by
    rw [cleared]
    split
    · exact isSilent_teardown hrelease s
    · rfl
  have hcopied : e.copyStored.IsSilent record := by
    refine isSilent_address.bind fun _ => (isSilent_task _).bind fun read => ?_
    cases read with
    | ok image => exact (isSilent_setSlot _).bind fun _ => isSilent_pure _
    | error f =>
        exact (isSilent_files _).bind fun _ => (isSilent_editProgram _).bind fun _ =>
          isSilent_pure _
  rw [e.load_run]
  exact (hcopied _).trans hcleared

theorem isSilent_stage (e : Engine τ ε) (address : String) :
    (e.stage address).IsSilent record := by
  refine (Act.isSilent_files _).bind fun _ => (Act.isSilent_files _).bind fun prepared => ?_
  cases prepared with
  | error f => exact Act.isSilent_pure _
  | ok done => exact Act.isSilent_freshTask _

theorem isSilent_failCompile (errors : List ProgramError) :
    (failCompile errors : EngineAct τ ε _).IsSilent record :=
  (isSilent_editProgram _).bind fun _ => isSilent_pure _

theorem isSilent_abandon (e : Engine τ ε) (staged : Path) (errors : List ProgramError) :
    (e.abandon staged errors).IsSilent record :=
  (isSilent_task _).bind fun _ => isSilent_failCompile errors

theorem isSilent_settle (e : Engine τ ε) (job : CompileJob) (staged : Path)
    (errors : List ProgramError) : (e.settle job staged errors).IsSilent record := by
  rw [settle]
  split
  · exact isSilent_abandon e staged errors
  · refine (isSilent_task _).bind fun committed => ?_
    cases committed with
    | error f => exact isSilent_abandon e staged _
    | ok done => exact (isSilent_editProgram _).bind fun _ => isSilent_pure _

/-- All that a compile can add to a record is what its compiler adds. -/
theorem isSilent_compile (hcompiler : ∀ request, (e.compiler request).IsSilent record) :
    e.compile.IsSilent record := by
  refine IsSilent.bind (fun _ => rfl) fun job =>
    (isSilent_inWorld (isSilent_stage e _)).bind fun staged => ?_
  cases staged with
  | error f => exact isSilent_failCompile _
  | ok staged =>
      refine IsSilent.bind ?_ fun errors => isSilent_settle e job staged errors
      refine (isSilent_inWorld (hcompiler _)).bind fun compiled => ?_
      cases compiled with
      | error f => exact isSilent_pure _
      | ok ds =>
          exact IsSilent.bind (isSilent_forM fun _ _ => rfl) fun _ => isSilent_pure _

end Engine

namespace ProcessEngine

open EngineAct

variable {τ α β : Type} (p : ProcessEngine τ)

/-- A record of what reaches the processes grows by the traffic of the act. -/
def Recorded (record : τ → List Dispatch) (told : Watched τ IsolatedEntry α) : Prop :=
  ∀ s, record (told.act.run s).2.world.outside =
    record s.world.outside ++ ((told.moments s).flatMap p.trafficOf).map Traffic.dispatch

variable {p} {record : τ → List Dispatch}

theorem recorded_quietly {act : EngineAct τ IsolatedEntry α} (h : act.IsSilent record) :
    p.Recorded record (Watched.quietly act) :=
  fun s => (h s).trans (List.append_nil _).symm

theorem recorded_pure (value : α) : p.Recorded record (pure value : Watched τ IsolatedEntry α) :=
  recorded_quietly (isSilent_pure value)

theorem Recorded.bind {told : Watched τ IsolatedEntry α} {f : α → Watched τ IsolatedEntry β}
    (h : p.Recorded record told) (hf : ∀ value, p.Recorded record (f value)) :
    p.Recorded record (told >>= f) := by
  intro s
  rw [Watched.moments_bind, List.flatMap_append, List.map_append, ← List.append_assoc, ← h s]
  exact hf (told.act.run s).1 (told.act.run s).2

/-- To ask an entry is to call its process. -/
theorem recorded_asking (h : p.launcher.Records record) {request : Request}
    {context : BoundContext IsolatedEntry} {act : Act τ (α × IsolatedEntry)}
    (hact : Overheard.Calls p.launcher context.entry request act) :
    p.Recorded record (Watched.asking request context act) := by
  intro s
  rw [Watched.moments_asking, List.flatMap_singleton, trafficOf_asked,
    ← Overheard.recorded_call h context.entry request s.world, ← (hact s.world).2]
  rfl

theorem recorded_bindImage (h : p.launcher.Records record) {address : String}
    {image : ArtifactImage} {s : EngineState τ IsolatedEntry} (hslot : s.slot.image? = some image) :
    record ((p.engine.bindImage address image).run s).2.world.outside =
      record s.world.outside ++
        (((Watched.bindImage p.engine address image).moments s).flatMap p.trafficOf).map
          Traffic.dispatch := by
  rcases p.engine.bindImage_outcomes hslot with
    ⟨hmoments, -, -, houtside⟩ | ⟨generation, request, bound, hmoments, hrequest, hbound, houtside, -⟩
  · rw [hmoments, houtside]
    exact (List.append_nil _).symm
  · rw [hmoments, houtside, ← hbound, List.flatMap_singleton, p.trafficOf_opened hrequest,
      p.run_bindEntry]
    exact Overheard.recorded_bindEntry h p.shadowDir p.extension request _

theorem recorded_ensureBound (h : p.launcher.Records record) :
    p.Recorded record (Watched.ensureBound p.engine) := by
  intro s
  rw [Watched.act_ensureBound]
  rcases p.engine.ensureBound_cases s with ⟨-, hmoments, hrun⟩ | ⟨image, context, -, hmoments, hrun⟩ |
    ⟨image, ready, -, hready, -, hgiven, hmoments, hrun⟩
  · rw [hmoments, hrun]
    exact (List.append_nil _).symm
  · rw [hmoments, hrun]
    exact (List.append_nil _).symm
  · have hsame : record ready.world.outside = record s.world.outside := by
      rcases hgiven with rfl | ⟨context, hdropped⟩
      · rfl
      · have hsilent := Engine.isSilent_dropOutdated (e := p.engine)
          (Overheard.isSilent_release h) s.program.address image context s
        rwa [hdropped] at hsilent
    rw [hmoments, hrun, ← hsame]
    exact recorded_bindImage h (by rw [hready]; rfl)

theorem recorded_setup (h : p.launcher.Records record) :
    p.Recorded record (Watched.setup p.engine) := by
  refine (recorded_ensureBound h).bind fun bound => ?_
  cases bound with
  | none => exact recorded_pure _
  | some context =>
      refine (recorded_asking h (Overheard.calls_invoke _ _ _)).bind fun answer => ?_
      cases answer with
      | error fault => exact recorded_pure _
      | ok result =>
          refine (recorded_quietly fun _ => rfl).bind fun program => ?_
          dsimp only
          split
          · exact (recorded_quietly fun _ => rfl).bind fun _ =>
              (recorded_quietly fun _ => rfl).bind fun _ => recorded_pure _
          · exact recorded_pure _

theorem recorded_run (h : p.launcher.Records record) (options : String) :
    p.Recorded record (Watched.run p.engine options) := by
  refine (recorded_ensureBound h).bind fun bound => ?_
  cases bound with
  | none => exact recorded_pure _
  | some context =>
      exact (recorded_asking h (Overheard.calls_invoke _ _ _)).bind fun _ =>
        (recorded_quietly fun _ => rfl).bind fun _ => (recorded_quietly fun _ => rfl).bind fun _ =>
          recorded_pure _

theorem recorded_reset (h : p.launcher.Records record) :
    p.Recorded record (Watched.reset p.engine) := by
  refine (recorded_quietly isSilent_slot).bind fun current => ?_
  cases current.context? with
  | none => exact recorded_pure _
  | some context =>
      refine (recorded_quietly fun _ => rfl).bind fun supported => ?_
      split
      · exact recorded_asking h (Overheard.calls_command _ _ _)
      · exact recorded_pure _

theorem recorded_unload (h : p.launcher.Records record) :
    p.Recorded record (Watched.unload p.engine) :=
  (recorded_reset h).bind fun _ => (recorded_quietly (isSilent_editProgram _)).bind fun _ =>
    recorded_quietly (Engine.isSilent_teardown (Overheard.isSilent_release h))

theorem recorded_dispose (h : p.launcher.Records record) :
    p.Recorded record (Watched.dispose p.engine) := by
  refine (recorded_quietly isSilent_slot).bind fun current => ?_
  split
  · exact recorded_unload h
  · exact recorded_pure _

end ProcessEngine

/-- The event is not one that the engine itself has a part in. -/
def EngineEvent.OfOthers {τ : Type} : EngineEvent τ → Prop
  | elsewhere _ _ => True
  | _ => False

namespace ProcessEngine

variable {τ : Type} {p : ProcessEngine τ} {record : τ → List Dispatch}

/-- Unless others are at work, all that reaches the processes is the traffic of the engine. -/
theorem recorded_event (h : p.launcher.Records record)
    (hcompiler : ∀ request, (p.compiler request).IsSilent record) {event : EngineEvent τ}
    (hown : ¬event.OfOthers) : p.Recorded record (event.watched p.engine) := by
  have hrelease := Overheard.isSilent_release h
  cases event with
  | order o =>
      cases o with
      | load =>
          exact (recorded_quietly (Engine.isSilent_load hrelease)).bind fun _ => recorded_pure _
      | unload => exact recorded_unload h
      | compile =>
          exact (recorded_quietly (Engine.isSilent_compile hcompiler)).bind fun _ =>
            recorded_pure _
      | setup => exact (recorded_setup h).bind fun _ => recorded_pure _
      | run options => exact (recorded_run h options).bind fun _ => recorded_pure _
      | reset => exact (recorded_reset h).bind fun _ => recorded_pure _
  | drop => exact recorded_dispose h
  | edit f => exact recorded_quietly (EngineAct.isSilent_editProgram f)
  | elsewhere world registry => exact absurd trivial hown

end ProcessEngine

end Automation
