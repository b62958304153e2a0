import Automation.Proofs.Engine.Traffic
import Automation.Proofs.Loading.Stages

/-
The order of the unit protocol.

As long as no exchange with it has failed, the unit that is bound serves, and it can be reset if it has
said so.  Every event keeps this, whatever the units do, so all that an engine ever says to its units
is said in order.
-/

namespace Automation

namespace ProcessEngine

open EngineAct

variable {τ : Type} (p : ProcessEngine τ)

/-- The type that the entries of its units must have. -/
def entryType : String := p.environment.config.entryType

/-- The unit that is bound serves, unless an exchange with it has failed. -/
def InStep (slot : Slot IsolatedEntry) (stages : Stages) : Prop :=
  ∀ context, slot.context? = some context →
    context.entry.At (.serving context.entry.supportsReset) stages

/-- What is said to units between two slots is said in order, and leaves the unit that is bound in
step. -/
def Leads (slot : Slot IsolatedEntry) (traffic : List Traffic) (now : Slot IsolatedEntry) : Prop :=
  ∀ stages, InStep slot stages → stages.Follow p.entryType traffic ∧
    InStep now (stages.after p.entryType traffic)

theorem inStep_of_unbound {slot : Slot IsolatedEntry} (h : slot.context? = none)
    (stages : Stages) : InStep slot stages :=
  fun context hcontext => by cases h.symm.trans hcontext

variable {p} {slot now later : Slot IsolatedEntry} {s : EngineState τ IsolatedEntry}

theorem Leads.refl (slot : Slot IsolatedEntry) : p.Leads slot [] slot :=
  fun _ hstep => ⟨trivial, hstep⟩

theorem leads_unbound (h : now.context? = none) : p.Leads slot [] now :=
  fun stages _ => ⟨trivial, inStep_of_unbound h stages⟩

theorem Leads.trans {first second : List Traffic} (h : p.Leads slot first now)
    (h' : p.Leads now second later) : p.Leads slot (first ++ second) later := by
  intro stages hstep
  obtain ⟨hfirst, hmiddle⟩ := h stages hstep
  obtain ⟨hsecond, hend⟩ := h' _ hmiddle
  rw [Stages.after_append]
  exact ⟨Stages.follow_append.mpr ⟨hfirst, hsecond⟩, hend⟩

/-- An image is bound in order, and the unit serves in the end. -/
theorem leads_bindImage {address : String} {image : ArtifactImage}
    (hslot : s.slot = .loaded image none) :
    p.Leads s.slot (((Watched.bindImage p.engine address image).moments s).flatMap p.trafficOf)
      ((p.engine.bindImage address image).run s).2.slot := by
  have himage : s.slot.image? = some image := by rw [hslot]; rfl
  rcases p.engine.bindImage_outcomes himage with ⟨hmoments, -, hsame, -⟩ |
    ⟨generation, request, bound, hmoments, hrequest, hbound, -, hend⟩
  · rw [hmoments, hsame]
    exact Leads.refl _
  · intro stages _
    rw [hmoments, List.flatMap_singleton, p.trafficOf_opened hrequest]
    have hobeys : Overheard.Obeys request.entryType (fun _ => True)
        (Overheard.bindEntry p.launcher p.shadowDir p.extension request) _ :=
      Overheard.obeys_bindEntry p.shadowDir p.extension request
    obtain ⟨hfollow, hserves⟩ := hobeys.run
      ((openContext address : EngineAct τ IsolatedEntry _).run s).2.world stages trivial
    rw [p.engine.entryType_of_request? hrequest] at hfollow hserves
    rw [← p.run_bindEntry, hbound] at hserves
    refine ⟨hfollow, ?_⟩
    rcases hend with ⟨problem, -, -, hsame⟩ | ⟨entry, hentry, -, hnow⟩
    · rw [hsame]
      exact inStep_of_unbound (by rw [hslot]; rfl) _
    · rw [hnow]
      intro context hcontext
      obtain rfl := Option.some.inj hcontext
      exact hserves entry hentry

theorem leads_ensureBound (s : EngineState τ IsolatedEntry) :
    p.Leads s.slot (((Watched.ensureBound p.engine).moments s).flatMap p.trafficOf)
      (p.engine.ensureBound.run s).2.slot := by
  rcases p.engine.ensureBound_cases s with ⟨-, hmoments, hrun⟩ | ⟨image, context, -, hmoments, hrun⟩ |
    ⟨image, ready, -, hready, -, -, hmoments, hrun⟩
  · rw [hmoments, hrun]
    exact Leads.refl _
  · rw [hmoments, hrun]
    exact Leads.refl _
  · rw [hmoments, hrun]
    exact (leads_unbound (by rw [hready]; rfl)).trans (leads_bindImage hready)

/-- The unit that is bound may be asked whatever a unit that serves permits. -/
theorem leads_asked {α : Type} {context : BoundContext IsolatedEntry} {request : Request}
    {act : Act τ (α × IsolatedEntry)} (hcontext : s.slot.context? = some context)
    (hpermits : (Stage.serving context.entry.supportsReset).permits request = true)
    (hact : Overheard.Calls p.launcher context.entry request act) :
    p.Leads s.slot (p.trafficOf ⟨.asked request context, s⟩)
      (s.slot.withEntry (act.run s.world).1.2) := by
  intro stages hstep
  have hobeys : Overheard.Obeys p.entryType (context.entry.At (.serving context.entry.supportsReset))
      (Overheard.call p.launcher context.entry request) _ := Overheard.obeys_call_serving hpermits
  obtain ⟨hfollow, hat⟩ := hobeys.run s.world stages (hstep context hcontext)
  rw [trafficOf_asked, (hact s.world).1]
  refine ⟨hfollow, ?_⟩
  cases hslot : s.slot with
  | unloaded =>
      rw [hslot] at hcontext
      cases hcontext
  | loaded image bound =>
      rw [hslot] at hcontext
      obtain rfl : bound = some context := hcontext
      intro found hfound
      obtain rfl := Option.some.inj hfound
      exact hat

theorem leads_setup (s : EngineState τ IsolatedEntry) :
    p.Leads s.slot (((Watched.setup p.engine).moments s).flatMap p.trafficOf)
      (p.engine.setup.run s).2.slot := by
  have hensured := leads_ensureBound (p := p) s
  rw [Watched.moments_setup, List.flatMap_append]
  cases hbound : (p.engine.ensureBound.run s).1 with
  | none =>
      rw [Engine.setup_of_none hbound]
      exact hensured.trans (Leads.refl _)
  | some context =>
      rw [(Engine.setup_of_some hbound).2, Option.toList_some, List.map_singleton,
        List.flatMap_singleton]
      exact hensured.trans
        (leads_asked (p.engine.ensureBound_some hbound).2.2 rfl (Overheard.calls_invoke _ _ _))

theorem leads_run (options : String) (s : EngineState τ IsolatedEntry) :
    p.Leads s.slot (((Watched.run p.engine options).moments s).flatMap p.trafficOf)
      ((p.engine.run options).run s).2.slot := by
  have hensured := leads_ensureBound (p := p) s
  rw [Watched.moments_run, List.flatMap_append]
  cases hbound : (p.engine.ensureBound.run s).1 with
  | none =>
      rw [Engine.run_of_none hbound]
      exact hensured.trans (Leads.refl _)
  | some context =>
      rw [(Engine.run_of_some hbound).2, Option.toList_some, List.map_singleton,
        List.flatMap_singleton]
      exact hensured.trans
        (leads_asked (p.engine.ensureBound_some hbound).2.2 rfl (Overheard.calls_invoke _ _ _))

theorem leads_reset (s : EngineState τ IsolatedEntry) :
    p.Leads s.slot (((Watched.reset p.engine).moments s).flatMap p.trafficOf)
      (p.engine.reset.run s).2.slot := by
  rcases p.engine.reset_cases s with ⟨hmoments, hrun⟩ |
    ⟨context, hcontext, hsupported, hmoments, hrun⟩
  · rw [hmoments, hrun]
    exact Leads.refl _
  · rw [hmoments, hrun, Engine.run_ask, List.flatMap_singleton]
    exact leads_asked hcontext hsupported (Overheard.calls_command _ _ _)

/-- Every event leads on in order. -/
theorem leads_event (event : EngineEvent τ) (s : EngineState τ IsolatedEntry) :
    p.Leads s.slot (p.traffic s event) (event.next p.engine s).slot := by
  -- Giving up the slot resets the unit, and then nothing is bound.
  have hreset : ∀ now : Slot IsolatedEntry, now.context? = none →
      p.Leads s.slot (((Watched.reset p.engine).moments s).flatMap p.trafficOf) now :=
    fun now hnow => List.append_nil (((Watched.reset p.engine).moments s).flatMap p.trafficOf) ▸
      (leads_reset s).trans (leads_unbound hnow)
  rw [traffic]
  cases event with
  | order o =>
      cases o with
      | load =>
          rw [EngineEvent.next_load]
          exact leads_unbound (p.engine.context?_load s)
      | unload =>
          rw [EngineEvent.next_unload, Engine.slot_unload]
          exact Watched.moments_unload p.engine s ▸ hreset .unloaded rfl
      | compile =>
          rw [EngineEvent.next_compile, Engine.slot_compile]
          exact Leads.refl _
      | setup =>
          rw [EngineEvent.next_setup, EngineEvent.moments_setup, ← Watched.moments_setup]
          exact leads_setup s
      | run options =>
          rw [EngineEvent.next_run, EngineEvent.moments_run, ← Watched.moments_run]
          exact leads_run options s
      | reset =>
          rw [EngineEvent.next_reset, EngineEvent.moments_reset]
          exact leads_reset s
  | drop =>
      rw [EngineEvent.next_drop, Engine.slot_dispose]
      exact Watched.moments_dispose p.engine s ▸ hreset .unloaded rfl
  | edit f => exact Leads.refl _
  | elsewhere world registry => exact Leads.refl _

/-- So does every course of events. -/
theorem leads_through (events : List (EngineEvent τ)) (s : EngineState τ IsolatedEntry) :
    p.Leads s.slot (p.trafficThrough s events) (p.engine.after s events).slot := by
  induction events generalizing s with
  | nil => exact Leads.refl _
  | cons event rest ih => exact (leads_event event s).trans (ih (event.next p.engine s))

end ProcessEngine

/-- What a unit is asked for in an event, if it is asked. -/
def EngineEvent.request? {τ : Type} : EngineEvent τ → Option Request
  | order .setup => some .setup
  | order (.run options) => some (.run options)
  | order .reset => some .reset
  | order .unload => some .reset
  | drop => some .reset
  | _ => none

namespace ProcessEngine

open EngineAct

variable {τ : Type} {p : ProcessEngine τ}

theorem invocations_ensureBound (s : EngineState τ IsolatedEntry) :
    invocations (((Watched.ensureBound p.engine).moments s).flatMap p.trafficOf) = [] := by
  rcases p.engine.ensureBound_cases s with ⟨-, hmoments, -⟩ | ⟨image, context, -, hmoments, -⟩ |
    ⟨image, ready, -, hready, -, -, hmoments, -⟩
  · rw [hmoments]
    rfl
  · rw [hmoments]
    rfl
  · have himage : ready.slot.image? = some image := by rw [hready]; rfl
    rw [hmoments]
    rcases p.engine.bindImage_outcomes himage with
      ⟨hnone, -⟩ | ⟨generation, request, bound, hone, hrequest, -⟩
    · rw [hnone]
      rfl
    · rw [hone, List.flatMap_singleton, p.trafficOf_opened hrequest]
      exact Overheard.prepares_bindEntry p.shadowDir p.extension request _

theorem invocations_invoked (request : Request) (s : EngineState τ IsolatedEntry) :
    (invocations (((Watched.ensureBound p.engine).moments s ++
      (p.engine.ensureBound.run s).1.toList.map fun context =>
        (⟨.asked request context, (p.engine.ensureBound.run s).2⟩ :
          Moment τ IsolatedEntry)).flatMap p.trafficOf)).Sublist [request] := by
  rw [List.flatMap_append, invocations_append, invocations_ensureBound, List.nil_append]
  cases (p.engine.ensureBound.run s).1 with
  | none => exact List.nil_sublist _
  | some context =>
      rw [Option.toList_some, List.map_singleton, List.flatMap_singleton, trafficOf_asked]
      exact (Overheard.invocations_call context.entry request _).trans List.filter_sublist

theorem invocations_reset (s : EngineState τ IsolatedEntry) :
    (invocations (((Watched.reset p.engine).moments s).flatMap p.trafficOf)).Sublist [.reset] := by
  rcases p.engine.reset_cases s with ⟨hmoments, -⟩ | ⟨context, -, -, hmoments, -⟩
  · rw [hmoments]
    exact List.nil_sublist _
  · rw [hmoments, List.flatMap_singleton, trafficOf_asked]
    exact (Overheard.invocations_call context.entry .reset _).trans List.filter_sublist

/-- In an event a unit is invoked once at most, and then as the engine is told. -/
theorem invocations_event (event : EngineEvent τ) (s : EngineState τ IsolatedEntry) :
    (invocations (p.traffic s event)).Sublist event.request?.toList := by
  rw [traffic]
  cases event with
  | order o =>
      cases o with
      | load => exact List.nil_sublist _
      | unload => exact Watched.moments_unload p.engine s ▸ invocations_reset s
      | compile => exact List.nil_sublist _
      | setup =>
          rw [EngineEvent.moments_setup]
          exact invocations_invoked _ s
      | run options =>
          rw [EngineEvent.moments_run]
          exact invocations_invoked _ s
      | reset =>
          rw [EngineEvent.moments_reset]
          exact invocations_reset s
  | drop => exact Watched.moments_dispose p.engine s ▸ invocations_reset s
  | edit f => exact List.nil_sublist _
  | elsewhere world registry => exact List.nil_sublist _

theorem invocations_through (events : List (EngineEvent τ)) (s : EngineState τ IsolatedEntry) :
    (invocations (p.trafficThrough s events)).Sublist (events.filterMap EngineEvent.request?) := by
  induction events generalizing s with
  | nil => exact List.Sublist.refl _
  | cons event rest ih =>
      rw [trafficThrough, invocations_append, List.filterMap_cons]
      have hboth := (invocations_event (p := p) event s).append (ih (event.next p.engine s))
      cases hrequest : event.request? with
      | none => simpa [hrequest] using hboth
      | some request => simpa [hrequest] using hboth

/-- Whatever its units do and whatever happens, an engine that starts with nothing bound speaks to every
process in order.  The first request to a process is to bind; only a unit that suits is told its host,
and only one that has taken it is set up, run or reset, the last when it can be reset; after an exchange
has failed, its process gets no other request.  What invokes units comes in the order in which the engine
was told to.  All this is said of the traffic, and unless others are at work, the traffic is all that
reaches the processes. -/
theorem units_are_addressed_in_order (p : ProcessEngine τ) :
    (∀ record, p.launcher.Records record →
      (∀ request, (p.compiler request).IsSilent record) →
      ∀ s (event : EngineEvent τ), ¬event.OfOthers →
        record (event.next p.engine s).world.outside =
          record s.world.outside ++ (p.traffic s event).map Traffic.dispatch) ∧
    ∀ s events, s.slot.context? = none →
      (∀ before process exchange rest,
        p.trafficThrough s events = before ++ .exchanged process exchange :: rest →
          ∃ stage, Stages.none.after p.entryType before process = some stage ∧
            stage.permits exchange.request = true) ∧
      (invocations (p.trafficThrough s events)).Sublist
        (events.filterMap EngineEvent.request?) := by
  refine ⟨fun record hrecord hcompiler s event hown => ?_, fun s events hunbound => ⟨?_, ?_⟩⟩
  · exact recorded_event hrecord hcompiler hown s
  · intro before process exchange rest htraffic
    obtain ⟨hfollow, -⟩ := leads_through events s Stages.none (inStep_of_unbound hunbound _)
    rw [htraffic] at hfollow
    exact hfollow.permits
  · exact invocations_through events s

end ProcessEngine

section Lamp

/-- What has reached the processes, and the lines that they have yet to write. -/
structure Parley where
  heard : List Dispatch
  replies : List String

/-- A launcher of units that write the lines they have been given, whatever they hear. -/
def Launcher.parrot : Launcher Parley where
  start _ := fun w =>
    (.ok w.outside.heard.length, { w with outside := { w.outside with
      heard := w.outside.heard ++ [.start w.outside.heard.length] } })
  send process line := fun w =>
    (.ok (), { w with outside := { w.outside with
      heard := w.outside.heard ++ [.line process line] } })
  receiveLine _ := fun w =>
    (.ok (w.outside.replies.headD ""), { w with outside := { w.outside with
      replies := w.outside.replies.tail } })
  waiting _ w := w.outside.replies.length
  stop _ := pure ()

theorem Launcher.records_parrot : Launcher.parrot.Records Parley.heard :=
  ⟨fun _ _ => rfl, fun _ _ _ => rfl, fun _ _ => rfl, fun _ _ => rfl⟩

def parleyEngine : ProcessEngine Parley where
  environment :=
    ⟨{ EngineConfig.standard with entryType := "Lamp" }, .ofConfig .standard, .builtin, ⟨"s"⟩⟩
  compiler _ := pure (.ok [])
  launcher := .parrot
  shadowDir := ⟨"s"⟩
  extension := "u"

/-- The artifact of the lamp is in the store.  Its unit is to be bound, to take its host, and then to
write something that is no reply. -/
def lampWithLines : EngineState Parley IsolatedEntry :=
  ⟨⟨World.withOneArtifact.host, [],
      [ "\x7b\"status\":\"bound\",\"entry\":\"a.Lamp\"," ++
          "\"capabilities\":[\"set_host\",\"setup\",\"run\",\"reset\"]\x7d\n"
      , "\x7b\"status\":\"done\"\x7d\n"
      , "\x7b\"status\":7\x7d\n" ]⟩,
    .unshared, .ofSource "lamp" "", .unloaded, []⟩

/-- The lamp is loaded, run and reset. -/
def lampCourse : List (EngineEvent Parley) :=
  [.order .load, .order (.run ""), .order .reset]

/-- After the run the lamp is out of step, so it is not reset. -/
theorem lamp_is_addressed_in_order :
    (parleyEngine.trafficThrough lampWithLines lampCourse).filterMap Traffic.request? =
        [.bind, .setHost "local" "lamp", .run ""] ∧
      (∀ before process exchange rest, parleyEngine.trafficThrough lampWithLines lampCourse =
        before ++ .exchanged process exchange :: rest →
          ∃ stage, Stages.none.after parleyEngine.entryType before process = some stage ∧
            stage.permits exchange.request = true) ∧
      (invocations (parleyEngine.trafficThrough lampWithLines lampCourse)).Sublist
        [.run "", .reset] ∧
      ∀ s, ((EngineEvent.order (.run "")).next parleyEngine.engine s).world.outside.heard =
        s.world.outside.heard ++
          (parleyEngine.traffic s (.order (.run ""))).map Traffic.dispatch := by
  obtain ⟨hheard, hordered⟩ := ProcessEngine.units_are_addressed_in_order parleyEngine
  obtain ⟨hpermitted, hinvoked⟩ := hordered lampWithLines lampCourse rfl
  refine ⟨by decide +kernel, hpermitted, hinvoked, fun s => ?_⟩
  exact hheard Parley.heard Launcher.records_parrot (fun _ _ => rfl) s _ id

end Lamp

end Automation
