import Automation.Proofs.Engine.Compiling
import Automation.Proofs.Engine.Invoking

/-
One engine among others.

An engine is told to work and is given up in the end.  In between its author edits the program, and
others change the world and the registry as they like.  Only the slot is the engine's own: no more
than three kinds of events can put another image into it, and no engine ever touches what the author
has written.
-/

namespace Automation

/-- What can happen to an engine. -/
inductive EngineEvent (τ : Type) where
  | order (o : Order)
  /-- It is given up. -/
  | drop
  /-- The author edits the program. -/
  | edit (f : ProgramBlock → ProgramBlock)
  /-- Others work in the same world, and use the same registry. -/
  | elsewhere (world : World τ → World τ) (registry : Registry → Registry)

namespace EngineEvent

open EngineAct

variable {τ ε : Type} (e : Engine τ ε)

/-- What an event does, under observation. -/
def watched : EngineEvent τ → Watched τ ε Unit
  | order o => o.watched e
  | drop => Watched.dispose e
  | edit f => Watched.quietly (editProgram f)
  | elsewhere world registry => Watched.quietly fun s =>
      ((), { s with world := world s.world, registry := registry s.registry })

/-- What the engine works on after an event. -/
def next (event : EngineEvent τ) (s : EngineState τ ε) : EngineState τ ε :=
  ((event.watched e).act.run s).2

theorem next_order (o : Order) (s : EngineState τ ε) :
    (order o).next e s = ((o.act e).run s).2 := by
  rw [next, watched, Order.act_watched]

theorem next_drop (s : EngineState τ ε) :
    (drop : EngineEvent τ).next e s = (e.dispose.run s).2 := by
  rw [next, watched, Watched.act_dispose]

section Orders

variable (s : EngineState τ ε)

theorem run_discard {α : Type} (act : EngineAct τ ε α) :
    (do let _ ← act : EngineAct τ ε Unit).run s = ((), (act.run s).2) := rfl

theorem next_load : (order .load).next e s = (e.load.run s).2 :=
  (next_order e .load s).trans (congrArg Prod.snd (run_discard s e.load))

theorem next_unload : (order .unload).next e s = (e.unload.run s).2 :=
  next_order e .unload s

theorem next_compile : (order .compile).next e s = (e.compile.run s).2 :=
  (next_order e .compile s).trans (congrArg Prod.snd (run_discard s e.compile))

theorem next_setup : (order .setup).next e s = (e.setup.run s).2 :=
  (next_order e .setup s).trans (congrArg Prod.snd (run_discard s e.setup))

theorem next_run (options : String) :
    (order (.run options)).next e s = ((e.run options).run s).2 :=
  (next_order e (.run options) s).trans (congrArg Prod.snd (run_discard s (e.run options)))

theorem next_reset : (order .reset).next e s = (e.reset.run s).2 :=
  (next_order e .reset s).trans (congrArg Prod.snd (run_discard s e.reset))

end Orders

@[simp] theorem next_edit (f : ProgramBlock → ProgramBlock) (s : EngineState τ ε) :
    (edit f : EngineEvent τ).next e s = { s with program := f s.program } := rfl

@[simp] theorem next_elsewhere (world : World τ → World τ) (registry : Registry → Registry)
    (s : EngineState τ ε) : (elsewhere world registry).next e s =
      { s with world := world s.world, registry := registry s.registry } := rfl

/-- The events that put another image into the slot, or none. -/
def Replaces : EngineEvent τ → Prop
  | order .load => True
  | order .unload => True
  | drop => True
  | _ => False

end EngineEvent

namespace Engine

variable {τ ε : Type} (e : Engine τ ε)

/-- What an engine works on after a course of events. -/
def after (s : EngineState τ ε) : List (EngineEvent τ) → EngineState τ ε
  | [] => s
  | event :: rest => after (event.next e s) rest

@[simp] theorem after_nil (s : EngineState τ ε) : e.after s [] = s := rfl

@[simp] theorem after_cons (s : EngineState τ ε) (event : EngineEvent τ)
    (rest : List (EngineEvent τ)) : e.after s (event :: rest) = e.after (event.next e s) rest := rfl

theorem after_append (s : EngineState τ ε) (first second : List (EngineEvent τ)) :
    e.after s (first ++ second) = e.after (e.after s first) second := by
  induction first generalizing s with
  | nil => rfl
  | cons event rest ih => exact ih (event.next e s)

end Engine

/-- A program as it would be if no engine had touched it. -/
def ProgramBlock.writing (p : ProgramBlock) : ProgramBlock :=
  { p with
    isEnabled := false
    scriptErrors := ""
    lastCompileErrors := []
    activationTime := none
    triggerTime := none }

/-- Between two states of an engine, its unit has not been replaced and its author has been idle. -/
structure EngineState.Continues {τ ε : Type} (s now : EngineState τ ε) : Prop where
  image : now.slot.image? = s.slot.image?
  writing : now.program.writing = s.program.writing

theorem EngineState.Continues.trans {τ ε : Type} {s now later : EngineState τ ε}
    (h : s.Continues now) (h' : now.Continues later) : s.Continues later :=
  ⟨h'.image.trans h.image, h'.writing.trans h.writing⟩

namespace EngineAct

variable {τ ε α β : Type}

/-- The act keeps the image in the slot and what the author has written. -/
def Continues (act : EngineAct τ ε α) : Prop :=
  ∀ s : EngineState τ ε, s.Continues (act.run s).2

theorem continues_pure (value : α) : (pure value : EngineAct τ ε α).Continues :=
  fun _ => ⟨rfl, rfl⟩

theorem Continues.bind {act : EngineAct τ ε α} {f : α → EngineAct τ ε β} (hact : act.Continues)
    (hf : ∀ value, (f value).Continues) : (act >>= f).Continues :=
  fun s => (hact s).trans (hf (act.run s).1 (act.run s).2)

theorem continues_inWorld (act : Act τ α) : (inWorld act : EngineAct τ ε α).Continues :=
  fun _ => ⟨rfl, rfl⟩

theorem continues_program : (program : EngineAct τ ε ProgramBlock).Continues :=
  fun _ => ⟨rfl, rfl⟩

theorem continues_slot : (slot : EngineAct τ ε (Slot ε)).Continues :=
  fun _ => ⟨rfl, rfl⟩

theorem continues_editProgram {f : ProgramBlock → ProgramBlock}
    (hf : ∀ p, (f p).writing = p.writing) : (editProgram f : EngineAct τ ε Unit).Continues :=
  fun s => ⟨rfl, hf s.program⟩

theorem continues_ask (call : Act τ (α × ε)) : (Engine.ask call : EngineAct τ ε α).Continues :=
  fun _ => ⟨Slot.image?_withEntry _ _, rfl⟩

end EngineAct

namespace Engine

open EngineAct

variable {τ ε : Type} (e : Engine τ ε)

theorem continues_bindImage {address : String} {image : ArtifactImage} {s : EngineState τ ε}
    (hslot : s.slot.image? = some image) :
    s.Continues ((e.bindImage address image).run s).2 := by
  rcases e.bindImage_cases address image s with
    ⟨-, w, hrun⟩ | ⟨-, -, ⟨w, entry, hrun⟩ | ⟨w, hrun⟩⟩
  · rw [hrun]
    exact ⟨rfl, rfl⟩
  · rw [hrun]
    exact ⟨hslot.symm, rfl⟩
  · rw [hrun]
    exact ⟨rfl, rfl⟩

theorem continues_ensureBound : e.ensureBound.Continues := by
  intro s
  rcases e.ensureBound_cases s with ⟨-, -, hrun⟩ | ⟨image, context, -, -, hrun⟩ |
    ⟨image, ready, himage, hready, hprogram, -, -, hrun⟩
  · rw [hrun]
    exact ⟨rfl, rfl⟩
  · rw [hrun]
    exact ⟨rfl, rfl⟩
  · rw [hrun]
    have hloaded : ready.slot.image? = some image := by rw [hready]; rfl
    have hbound : ready.Continues ((e.bindImage s.program.address image).run ready).2 :=
      e.continues_bindImage hloaded
    exact ⟨hbound.image.trans (hloaded.trans himage.symm),
      hbound.writing.trans (congrArg ProgramBlock.writing hprogram)⟩

theorem continues_setup : e.setup.Continues := by
  refine e.continues_ensureBound.bind fun bound => ?_
  cases bound with
  | none => exact continues_pure _
  | some context =>
      refine (continues_ask _).bind fun answer => ?_
      cases answer with
      | error fault => exact continues_pure _
      | ok result =>
          refine continues_program.bind fun p => ?_
          extract_lets activated answer
          split
          · exact (continues_inWorld _).bind fun now =>
              (continues_editProgram fun _ => by rfl).bind fun _ => continues_pure _
          · exact continues_pure _

theorem continues_run (options : String) : (e.run options).Continues := by
  refine e.continues_ensureBound.bind fun bound => ?_
  cases bound with
  | none => exact continues_pure _
  | some context =>
      exact (continues_ask _).bind fun answer => (continues_inWorld _).bind fun now =>
        (continues_editProgram fun _ => by rfl).bind fun _ => continues_pure _

theorem continues_reset : e.reset.Continues := by
  refine continues_slot.bind fun current => ?_
  cases current.context? with
  | none => exact continues_pure _
  | some context =>
      refine (continues_inWorld _).bind fun supported => ?_
      split
      · exact continues_ask _
      · exact continues_pure _

theorem slot_compile (s : EngineState τ ε) : (e.compile.run s).2.slot = s.slot := by
  obtain ⟨houtcome, -⟩ := Followed.outcome_compile .plain e s
  rw [Followed.act_compile] at houtcome
  exact houtcome.slot

theorem continues_compile : e.compile.Continues := by
  intro s
  obtain ⟨houtcome, -⟩ := Followed.outcome_compile .plain e s
  rw [Followed.act_compile] at houtcome
  refine ⟨congrArg Slot.image? houtcome.slot, ?_⟩
  by_cases herrors : (e.compile.run s).1 = []
  · rw [houtcome.done herrors]
    rfl
  · rw [houtcome.failed herrors]
    rfl

end Engine

namespace Watched

variable {τ ε : Type} {e : Engine τ ε} {s : EngineState τ ε} {moment : Moment τ ε}

theorem image?_of_mem_ensureBound (h : moment ∈ (ensureBound e).moments s) :
    moment.state.slot.image? = s.slot.image? := by
  rcases e.ensureBound_cases s with ⟨-, hnone, -⟩ | ⟨image, context, -, hnone, -⟩ |
    ⟨image, ready, himage, hready, -, -, hmoments, -⟩
  · rw [hnone] at h
    cases h
  · rw [hnone] at h
    cases h
  · rw [hmoments] at h
    rw [state_of_mem_bindImage h, himage, hready, Slot.image?_loaded]

/-- All through an invocation the same image is loaded. -/
theorem image?_of_mem_invoked {request : Request}
    (h : moment ∈ (ensureBound e).moments s ++
      (e.ensureBound.run s).1.toList.map fun context =>
        ⟨.asked request context, (e.ensureBound.run s).2⟩) :
    moment.state.slot.image? = s.slot.image? := by
  rcases List.mem_append.mp h with h | h
  · exact image?_of_mem_ensureBound h
  · obtain ⟨context, -, rfl⟩ := List.mem_map.mp h
    exact (e.continues_ensureBound s).image

end Watched

namespace EngineEvent

variable {τ ε : Type} {e : Engine τ ε} {event : EngineEvent τ}

/-- Only when it is loaded, unloaded or given up does an engine take another image. -/
theorem image?_next (h : ¬event.Replaces) (s : EngineState τ ε) :
    (event.next e s).slot.image? = s.slot.image? := by
  cases event with
  | order o =>
      cases o with
      | load => exact absurd trivial h
      | unload => exact absurd trivial h
      | compile =>
          rw [next_compile]
          exact (e.continues_compile s).image
      | setup =>
          rw [next_setup]
          exact (e.continues_setup s).image
      | run options =>
          rw [next_run]
          exact (e.continues_run options s).image
      | reset =>
          rw [next_reset]
          exact (e.continues_reset s).image
  | drop => exact absurd trivial h
  | edit f => rfl
  | elsewhere world registry => rfl

section Moments

variable (e : Engine τ ε) (s : EngineState τ ε)

theorem moments_setup : ((order .setup : EngineEvent τ).watched e).moments s =
    (Watched.ensureBound e).moments s ++ (e.ensureBound.run s).1.toList.map fun context =>
      ⟨.asked .setup context, (e.ensureBound.run s).2⟩ := by
  rw [← Watched.moments_setup]
  simp [watched, Order.watched]

theorem moments_run (options : String) :
    ((order (.run options) : EngineEvent τ).watched e).moments s =
      (Watched.ensureBound e).moments s ++ (e.ensureBound.run s).1.toList.map fun context =>
        ⟨.asked (.run options) context, (e.ensureBound.run s).2⟩ := by
  rw [← Watched.moments_run]
  simp [watched, Order.watched]

theorem moments_reset : ((order .reset : EngineEvent τ).watched e).moments s =
    (Watched.reset e).moments s := by
  simp [watched, Order.watched]

end Moments

/-- All through an event the image is the one that was loaded before. -/
theorem image?_of_mem_moments {s : EngineState τ ε} {moment : Moment τ ε}
    (h : moment ∈ (event.watched e).moments s) :
    moment.state.slot.image? = s.slot.image? := by
  have hreset : moment ∈ (Watched.reset e).moments s →
      moment.state.slot.image? = s.slot.image? :=
    fun hmem => by rw [Watched.state_of_mem_reset hmem]
  cases event with
  | order o =>
      cases o with
      | load => cases h
      | compile => cases h
      | unload => exact hreset (Watched.moments_unload e s ▸ h)
      | reset => exact hreset (moments_reset e s ▸ h)
      | setup => exact Watched.image?_of_mem_invoked (moments_setup e s ▸ h)
      | run options => exact Watched.image?_of_mem_invoked (moments_run e s options ▸ h)
  | drop => exact hreset (Watched.moments_dispose e s ▸ h)
  | edit f => cases h
  | elsewhere world registry => cases h

end EngineEvent

namespace Engine

open EngineAct

variable {τ ε : Type} (e : Engine τ ε) (s : EngineState τ ε)

theorem writing_teardown : (e.teardown.run s).2.program.writing = s.program.writing := by
  obtain ⟨w, hrun⟩ := e.teardown_run s
  rw [hrun]

theorem slot_unload : (e.unload.run s).2.slot = .unloaded := by
  simp only [unload, run_bind]
  generalize StateT.run (editProgram _) _ = edited
  obtain ⟨w, hrun⟩ := e.teardown_run edited.2
  rw [hrun]

theorem writing_unload : (e.unload.run s).2.program.writing = s.program.writing := by
  simp only [unload, run_bind]
  rw [writing_teardown]
  exact (e.continues_reset s).writing

theorem slot_dispose : (e.dispose.run s).2.slot = .unloaded := by
  cases hslot : s.slot with
  | unloaded =>
      simp only [dispose, run_bind, run_slot, hslot]
      exact hslot
  | loaded image context =>
      simp only [dispose, run_bind, run_slot, hslot]
      exact e.slot_unload s

theorem writing_dispose : (e.dispose.run s).2.program.writing = s.program.writing := by
  cases hloaded : s.slot.isLoaded with
  | true =>
      simp only [dispose, run_bind, run_slot, hloaded]
      exact e.writing_unload s
  | false =>
      simp only [dispose, run_bind, run_slot, hloaded]
      rfl

end Engine

/-- Unless it is loaded, an engine that replaces its image has none. -/
theorem EngineEvent.slot_next {τ ε : Type} {e : Engine τ ε} {s : EngineState τ ε}
    {event : EngineEvent τ} (hload : event ≠ .order .load) (h : event.Replaces) :
    (event.next e s).slot = .unloaded := by
  cases event with
  | order o =>
      cases o with
      | load => exact absurd rfl hload
      | unload =>
          rw [next_unload]
          exact e.slot_unload s
      | compile => exact h.elim
      | setup => exact h.elim
      | run options => exact h.elim
      | reset => exact h.elim
  | drop =>
      rw [next_drop]
      exact e.slot_dispose s
  | edit f => exact h.elim
  | elsewhere world registry => exact h.elim

end Automation
