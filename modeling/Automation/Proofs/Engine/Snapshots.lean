import Automation.Proofs.Engine.Loading

/-
Units are snapshots.

Whenever an engine asks its loader to bind a unit, it hands over the image that its latest successful
load has read, whatever has become of the stored files since.  So what a unit answers depends on the
files at the time of the load and on nothing that happens to them afterwards.
-/

namespace Automation

variable {τ ε : Type}

namespace Engine

open EngineAct

section Requests

variable (e : Engine τ ε) (s : EngineState τ ε)

/-- The requests to bind that an engine makes in an event. -/
def requests (event : EngineEvent τ) : List BindRequest :=
  ((event.watched e).moments s).filterMap e.request?

/-- The requests to bind that it makes in a course of events. -/
def requestsThrough (s : EngineState τ ε) : List (EngineEvent τ) → List BindRequest
  | [] => []
  | event :: rest => e.requests s event ++ requestsThrough (event.next e s) rest

/-- The engine with another way to find entries. -/
def withBind (bind : BindRequest → Act τ (Except BindingError ε)) : Engine τ ε :=
  { e with loader := { e.loader with bind := bind } }

/-- The image that an event has read from the store. -/
def read? : EngineEvent τ → Option ArtifactImage
  | .order .load => (e.stored (e.cleared s)).toOption
  | _ => none

/-- The image that the latest successful load of a course has read; without one, the image that was
loaded before. -/
def latestRead (image : Option ArtifactImage) (s : EngineState τ ε) :
    List (EngineEvent τ) → Option ArtifactImage
  | [] => image
  | event :: rest => latestRead ((e.read? s event).or image) (event.next e s) rest

end Requests

end Engine

namespace Engine

open EngineAct

variable {e : Engine τ ε} {s : EngineState τ ε} {event : EngineEvent τ}
  {events : List (EngineEvent τ)}

/-- A request to bind carries the image that is loaded. -/
theorem image?_of_mem_requests {request : BindRequest} (h : request ∈ e.requests s event) :
    s.slot.image? = some request.image := by
  obtain ⟨moment, hmem, hrequest⟩ := List.mem_filterMap.mp h
  rw [← EngineEvent.image?_of_mem_moments hmem]
  rw [request?] at hrequest
  split at hrequest
  · cases hrequest
  · obtain ⟨image, himage, rfl⟩ := Option.map_eq_some_iff.mp hrequest
    exact himage

/-- What is loaded after an event has been read in it, or was loaded before. -/
theorem read?_of_image?_next {image : ArtifactImage} {found : Option ArtifactImage}
    (hfound : ∀ image, s.slot.image? = some image → found = some image)
    (h : (event.next e s).slot.image? = some image) :
    (e.read? s event).or found = some image := by
  by_cases hload : event = .order .load
  · subst hload
    rw [EngineEvent.next_load] at h
    have houtcome := e.load_outcome s
    cases hread : e.stored (e.cleared s) with
    | ok read =>
        rw [(houtcome.done read hread).1] at h
        simpa [read?, hread, Except.toOption] using h
    | error f =>
        rw [(houtcome.failed f hread).1] at h
        cases h
  · have hread : e.read? s event = none := by
      rw [read?]
      exact hload
    rw [hread, Option.none_or]
    by_cases hreplaces : event.Replaces
    · rw [EngineEvent.slot_next hload hreplaces] at h
      cases h
    · exact hfound image ((EngineEvent.image?_next hreplaces s).symm.trans h)

/-- Whatever is loaded is what the latest successful load has read. -/
theorem image?_after {image : ArtifactImage} {found : Option ArtifactImage}
    (hfound : ∀ image, s.slot.image? = some image → found = some image)
    (h : (e.after s events).slot.image? = some image) :
    e.latestRead found s events = some image := by
  induction events generalizing s found with
  | nil => exact hfound image h
  | cons event rest ih => exact ih (fun image himage => read?_of_image?_next hfound himage) h

section Loaders

variable {bind : BindRequest → Act τ (Except BindingError ε)}

theorem bindEntry_withBind {request : BindRequest} (h : bind request = e.loader.bind request) :
    (e.withBind bind).loader.bindEntry request = e.loader.bindEntry request := by
  rw [UnitLoader.bindEntry, UnitLoader.bindEntry, ← h]
  rfl

theorem bindImage_withBind {address : String} {image : ArtifactImage}
    (hslot : s.slot.image? = some image)
    (h : ∀ request ∈ ((Watched.bindImage e address image).moments s).filterMap e.request?,
      bind request = e.loader.bind request) :
    ((e.withBind bind).bindImage address image).run s = (e.bindImage address image).run s := by
  rw [bindImage, bindImage, run_bind, run_bind]
  cases hopened : ((openContext address : EngineAct τ ε _).run s).1 with
  | error refusal => rfl
  | ok generation =>
      let config := e.environment.config
      have hrequest : (⟨address, generation, image, config.entryType, config.host.endpoint⟩ :
          BindRequest) ∈ ((Watched.bindImage e address image).moments s).filterMap e.request? := by
        refine List.mem_filterMap.mpr ⟨⟨.opened address generation, s⟩, ?_, ?_⟩
        · refine List.mem_append_left _ ?_
          simp [Watched.opening, hopened]
        · simp [request?, hslot, config]
      have hentry := bindEntry_withBind (h _ hrequest)
      simp only [run_bind]
      rw [show (e.withBind bind).environment = e.environment from rfl, hentry]

theorem ensureBound_withBind
    (h : ∀ request ∈ ((Watched.ensureBound e).moments s).filterMap e.request?,
      bind request = e.loader.bind request) :
    (e.withBind bind).ensureBound.run s = e.ensureBound.run s := by
  simp only [Watched.ensureBound, Watched.moments_bind, Watched.moments_quietly, List.nil_append,
    Watched.act_quietly, run_address, run_slot] at h
  simp only [ensureBound, run_bind, run_address, run_slot]
  cases hslot : s.slot with
  | unloaded => rfl
  | loaded image context =>
      rw [hslot] at h
      cases context with
      | none => exact bindImage_withBind (by rw [hslot]; rfl) h
      | some context =>
          simp only [Watched.moments_bind, Watched.moments_quietly, List.nil_append,
            Watched.act_quietly] at h
          simp only [run_bind]
          have hdrop : (e.withBind bind).dropOutdated s.program.address image context =
              e.dropOutdated s.program.address image context := rfl
          rw [hdrop]
          rcases e.dropOutdated_cases s.program.address image context s with
            ⟨-, hrun⟩ | ⟨-, w, hrun⟩ | ⟨-, w, hrun⟩
          · rw [hrun]
          · rw [hrun] at h ⊢
            exact bindImage_withBind rfl h
          · rw [hrun] at h ⊢
            exact bindImage_withBind rfl h

/-- An event depends on how entries are found only where it asks for one. -/
theorem next_withBind (h : ∀ request ∈ e.requests s event, bind request = e.loader.bind request) :
    event.next (e.withBind bind) s = event.next e s := by
  cases event with
  | order o =>
      cases o with
      | setup =>
          rw [requests, EngineEvent.moments_setup, List.filterMap_append] at h
          have hbound := ensureBound_withBind fun request hrequest =>
            h request (List.mem_append_left _ hrequest)
          rw [EngineEvent.next_setup, EngineEvent.next_setup, setup, setup, run_bind, run_bind,
            hbound]
          rfl
      | run options =>
          rw [requests, EngineEvent.moments_run, List.filterMap_append] at h
          have hbound := ensureBound_withBind fun request hrequest =>
            h request (List.mem_append_left _ hrequest)
          rw [EngineEvent.next_run, EngineEvent.next_run, run, run, run_bind, run_bind, hbound]
          rfl
      | _ => rfl
  | _ => rfl

/-- So does a whole course. -/
theorem after_withBind
    (h : ∀ request ∈ e.requestsThrough s events, bind request = e.loader.bind request) :
    (e.withBind bind).after s events = e.after s events := by
  induction events generalizing s with
  | nil => rfl
  | cons event rest ih =>
      have hfirst := next_withBind fun request hrequest =>
        h request (List.mem_append_left _ hrequest)
      rw [after_cons, after_cons, hfirst]
      exact ih fun request hrequest => h request (List.mem_append_right _ hrequest)

end Loaders

end Engine

/-- What is asked of an entry is answered as a function of its image, which stays as it is. -/
def Answers {α : Type} (image : ε → ArtifactImage) (call : ε → Act τ (α × ε))
    (answer : ArtifactImage → α) : Prop :=
  ∀ entry w, ((call entry).run w).1.1 = answer (image entry) ∧
    image ((call entry).run w).1.2 = image entry

/-- A loader of units whose answers are a function of the image and the request. -/
structure UnitLoader.Answering (loader : UnitLoader τ ε) where
  /-- The image that an entry is made of. -/
  image : ε → ArtifactImage
  setup : ArtifactImage → Except ScriptFault MethodRunResult
  run : ArtifactImage → String → Except ScriptFault MethodRunResult
  reset : ArtifactImage → Except ScriptFault Unit
  bound : ∀ {request w entry}, ((loader.bindEntry request).run w).1 = .ok entry →
    image entry = request.image
  answers_setup : Answers image loader.capabilities.setup setup
  answers_run : ∀ options, Answers image (fun entry => loader.capabilities.run entry options)
    fun image => run image options
  answers_reset : Answers image loader.capabilities.reset reset

namespace Engine

open EngineAct

/-- What the unit answers to an order, as far as it is asked. -/
def answer (e : Engine τ ε) (s : EngineState τ ε) :
    Order → Option (Except ScriptFault (Option MethodRunResult))
  | .setup => told (e.setup.run s).1
  | .run options => told ((e.run options).run s).1
  | .reset =>
      if ((Watched.reset e).moments s).isEmpty then none
      else some ((e.reset.run s).1.map fun _ => none)
  | _ => none
where
  /-- An invocation without a bound unit has no result. -/
  told : Except ScriptFault (Option MethodRunResult) →
      Option (Except ScriptFault (Option MethodRunResult))
    | .ok none => none
    | answer => some answer

variable {e : Engine τ ε} {s : EngineState τ ε} {context : BoundContext ε}

section Functions

variable {a : e.loader.Answering}

/-- The entry that is bound is made of the image that is loaded. -/
def InKeeping (a : e.loader.Answering) (slot : Slot ε) : Prop :=
  ∀ context, slot.context? = some context → slot.image? = some (a.image context.entry)

theorem inKeeping_of_unbound {slot : Slot ε} (h : slot.context? = none) : InKeeping a slot :=
  fun context hcontext => by cases h.symm.trans hcontext

theorem InKeeping.withEntry {slot : Slot ε} (h : InKeeping a slot)
    (hcontext : slot.context? = some context) {entry : ε}
    (hsame : a.image entry = a.image context.entry) : InKeeping a (slot.withEntry entry) := by
  intro found hfound
  have himage := h context hcontext
  rw [Slot.image?_withEntry, himage, ← hsame]
  cases slot with
  | unloaded => cases hcontext
  | loaded image bound =>
      obtain rfl : bound = some context := hcontext
      obtain rfl := Option.some.inj hfound
      rfl

theorem inKeeping_bindImage {address : String} {image : ArtifactImage}
    (hslot : s.slot = .loaded image none) :
    InKeeping a ((e.bindImage address image).run s).2.slot := by
  have hunbound : InKeeping a s.slot := inKeeping_of_unbound (by rw [hslot]; rfl)
  rw [bindImage, run_bind]
  cases ((openContext address : EngineAct τ ε _).run s).1 with
  | error refusal => exact hunbound
  | ok generation =>
      dsimp only
      rw [run_bind, run_inWorld]
      cases hbound : StateT.run (e.loader.bindEntry _) _ with
      | mk made w =>
      cases made with
      | error problem => exact hunbound
      | ok entry =>
          intro found hfound
          obtain rfl := Option.some.inj hfound
          exact congrArg some (a.bound (congrArg Prod.fst hbound)).symm

theorem inKeeping_ensureBound (h : InKeeping a s.slot) :
    InKeeping a (e.ensureBound.run s).2.slot := by
  rcases e.ensureBound_cases s with ⟨-, -, hrun⟩ | ⟨image, context, -, -, hrun⟩ |
    ⟨image, ready, -, hready, -, -, -, hrun⟩
  · rw [hrun]
    exact h
  · rw [hrun]
    exact h
  · rw [hrun]
    exact inKeeping_bindImage hready

/-- The image that a bound entry is made of is the one that was loaded before. -/
theorem image_of_ensureBound {image : ArtifactImage} (h : InKeeping a s.slot)
    (himage : s.slot.image? = some image) (hbound : (e.ensureBound.run s).1 = some context) :
    a.image context.entry = image := by
  obtain ⟨-, -, hcontext⟩ := e.ensureBound_some hbound
  have hloaded := (e.continues_ensureBound s).image.trans himage
  exact Option.some.inj ((inKeeping_ensureBound h context hcontext).symm.trans hloaded)

theorem inKeeping_setup (h : InKeeping a s.slot) : InKeeping a (e.setup.run s).2.slot := by
  have hensured := inKeeping_ensureBound h
  cases hbound : (e.ensureBound.run s).1 with
  | none =>
      rw [setup_of_none hbound]
      exact hensured
  | some context =>
      rw [(setup_of_some hbound).2]
      exact hensured.withEntry (e.ensureBound_some hbound).2.2 (a.answers_setup _ _).2

theorem inKeeping_run {options : String} (h : InKeeping a s.slot) :
    InKeeping a ((e.run options).run s).2.slot := by
  have hensured := inKeeping_ensureBound h
  cases hbound : (e.ensureBound.run s).1 with
  | none =>
      rw [run_of_none hbound]
      exact hensured
  | some context =>
      rw [(run_of_some hbound).2]
      exact hensured.withEntry (e.ensureBound_some hbound).2.2 (a.answers_run options _ _).2

theorem inKeeping_reset (h : InKeeping a s.slot) : InKeeping a (e.reset.run s).2.slot := by
  rcases e.reset_cases s with ⟨-, hrun⟩ | ⟨context, hcontext, -, -, hrun⟩
  · rw [hrun]
    exact h
  · rw [hrun]
    exact h.withEntry hcontext (a.answers_reset _ _).2

theorem inKeeping_load : InKeeping a (e.load.run s).2.slot :=
  inKeeping_of_unbound (e.context?_load s)

theorem inKeeping_next (h : InKeeping a s.slot) (event : EngineEvent τ) :
    InKeeping a (event.next e s).slot := by
  have hempty : InKeeping a .unloaded := inKeeping_of_unbound rfl
  cases event with
  | order o =>
      cases o with
      | load =>
          rw [EngineEvent.next_load]
          exact inKeeping_load
      | unload =>
          rw [EngineEvent.next_unload, slot_unload]
          exact hempty
      | compile =>
          rw [EngineEvent.next_compile, slot_compile]
          exact h
      | setup =>
          rw [EngineEvent.next_setup]
          exact inKeeping_setup h
      | run options =>
          rw [EngineEvent.next_run]
          exact inKeeping_run h
      | reset =>
          rw [EngineEvent.next_reset]
          exact inKeeping_reset h
  | drop =>
      rw [EngineEvent.next_drop, slot_dispose]
      exact hempty
  | edit f => exact h
  | elsewhere world registry => exact h

theorem inKeeping_after (h : InKeeping a s.slot) (events : List (EngineEvent τ)) :
    InKeeping a (e.after s events).slot := by
  induction events generalizing s with
  | nil => exact h
  | cons event rest ih => exact ih (inKeeping_next h event)

/-- What a unit of an image answers to an order.  Setting it up counts as yes while the program is
told to run anyway. -/
def expected (a : e.loader.Answering) (image : ArtifactImage) (willRun : Bool) :
    Order → Except ScriptFault (Option MethodRunResult)
  | .setup => (a.setup image).map fun result =>
      some { result with returnValue := result.returnValue || willRun }
  | .run options => (a.run image options).map some
  | .reset => (a.reset image).map fun _ => none
  | _ => .ok none

theorem eq_of_told {found result : Except ScriptFault (Option MethodRunResult)}
    (h : answer.told result = some found) : found = result := by
  rw [answer.told.eq_def] at h
  split at h
  · cases h
  · exact (Option.some.inj h).symm

theorem answer_eq_expected {image : ArtifactImage} (h : InKeeping a s.slot)
    (himage : s.slot.image? = some image) {o : Order}
    {found : Except ScriptFault (Option MethodRunResult)} (hfound : e.answer s o = some found) :
    found = expected a image s.program.willRun o := by
  cases o with
  | setup =>
      obtain rfl := eq_of_told hfound
      cases hbound : (e.ensureBound.run s).1 with
      | none =>
          rw [answer, setup_of_none hbound] at hfound
          cases hfound
      | some context =>
          rw [(setup_of_some hbound).1, (a.answers_setup _ _).1,
            image_of_ensureBound h himage hbound, expected]
  | run options =>
      obtain rfl := eq_of_told hfound
      cases hbound : (e.ensureBound.run s).1 with
      | none =>
          rw [answer, run_of_none hbound] at hfound
          cases hfound
      | some context =>
          rw [(run_of_some hbound).1, (a.answers_run options _ _).1,
            image_of_ensureBound h himage hbound, expected]
  | reset =>
      rw [answer] at hfound
      rcases e.reset_cases s with ⟨hnone, -⟩ | ⟨context, hcontext, -, hone, hrun⟩
      · rw [hnone] at hfound
        cases hfound
      · have hentry : a.image context.entry = image :=
          Option.some.inj ((h context hcontext).symm.trans himage)
        rw [hone, hrun, run_ask, (a.answers_reset _ _).1, hentry] at hfound
        exact (Option.some.inj hfound).symm
  | load => cases hfound
  | unload => cases hfound
  | compile => cases hfound

end Functions

/-- As long as the unit is not replaced, the image stays. -/
theorem image?_after_of_keeps (h : ∀ event ∈ events, ¬event.Replaces) :
    (e.after s events).slot.image? = s.slot.image? := by
  induction events generalizing s with
  | nil => rfl
  | cons event rest ih =>
      rw [after_cons, ih fun later hlater => h later (List.mem_cons_of_mem event hlater)]
      exact EngineEvent.image?_next (h event List.mem_cons_self) s

/-- As long as the stored files are the same, a load that follows another one loads the same. -/
theorem load_again {now : EngineState τ ε} (haddress : now.program.address = s.program.address)
    (hstored : e.environment.store.SameStored s.program.address (e.cleared s).world.host.files
      (e.cleared now).world.host.files) {image : ArtifactImage}
    (hread : e.stored (e.cleared s) = .ok image) : e.stored (e.cleared now) = .ok image := by
  rw [stored_eq, program_cleared] at hread ⊢
  rw [haddress]
  exact hstored.imageAt hread

/-- A loaded unit is a snapshot.  Only when it is loaded, unloaded or given up does an engine take
another image, and whatever happens in between, each request to bind carries the image that the
latest successful load has read; nothing that an engine does depends on how its loader answers other
requests.  A load succeeds exactly when the store can be read, and otherwise leaves the slot empty and
notes the problem if none is noted.  So when the stored files are the same, a load that follows
another one loads the same image; and of units whose answers are a function of the image and the
request, the one answers what the other does, in whatever courses of events they are asked. -/
theorem loaded_units_are_snapshots (e : Engine τ ε) :
    (∀ (s : EngineState τ ε) (event : EngineEvent τ), ¬event.Replaces →
      (event.next e s).slot.image? = s.slot.image?) ∧
    (∀ s before event, ∀ request ∈ e.requests (e.after s before) event,
      e.latestRead s.slot.image? s before = some request.image) ∧
    (∀ s events bind,
      (∀ request ∈ e.requestsThrough s events, bind request = e.loader.bind request) →
        (e.withBind bind).after s events = e.after s events) ∧
    (∀ s, e.LoadOutcome s (e.load.run s).1 (e.load.run s).2) ∧
    ∀ s now, now.program.address = s.program.address →
      e.environment.store.SameStored s.program.address (e.cleared s).world.host.files
        (e.cleared now).world.host.files →
      (e.load.run s).1 = true →
        (e.load.run now).1 = true ∧
        (e.load.run now).2.slot = (e.load.run s).2.slot ∧
        ∀ (_ : e.loader.Answering) (first second : List (EngineEvent τ)),
          (∀ event ∈ first ++ second, ¬event.Replaces) →
          (e.after (e.load.run now).2 second).program.willRun =
            (e.after (e.load.run s).2 first).program.willRun →
          ∀ o given later, e.answer (e.after (e.load.run s).2 first) o = some given →
            e.answer (e.after (e.load.run now).2 second) o = some later → later = given := by
  refine ⟨fun s event h => EngineEvent.image?_next h s, fun s before event request hrequest => ?_,
    fun s events bind h => after_withBind h, e.load_outcome,
    fun s now haddress hstored hloaded => ?_⟩
  · exact image?_after (fun image himage => himage) (image?_of_mem_requests hrequest)
  · have houtcome := e.load_outcome s
    have hagain := e.load_outcome now
    obtain ⟨image, hread⟩ := houtcome.answer.mp hloaded
    have hread' := load_again haddress hstored hread
    have hslot := (houtcome.done image hread).1
    have hslot' := (hagain.done image hread').1
    refine ⟨hagain.answer.mpr ⟨image, hread'⟩, hslot'.trans hslot.symm,
      fun a first second hkeeps hwill o given later hgiven hlater => ?_⟩
    have hfirst : (e.after (e.load.run s).2 first).slot.image? = some image := by
      rw [image?_after_of_keeps fun event hevent => hkeeps event (List.mem_append_left _ hevent),
        hslot, Slot.image?_loaded]
    have hsecond : (e.after (e.load.run now).2 second).slot.image? = some image := by
      rw [image?_after_of_keeps fun event hevent => hkeeps event (List.mem_append_right _ hevent),
        hslot', Slot.image?_loaded]
    have hexpected := answer_eq_expected (inKeeping_after (a := a) inKeeping_load first) hfirst hgiven
    have hexpected' :=
      answer_eq_expected (inKeeping_after (a := a) inKeeping_load second) hsecond hlater
    rw [hexpected, hexpected', hwill]

end Engine

section Lamp

/-- A loader whose entries are the images themselves, and say whether they have symbols. -/
def UnitLoader.mirror : UnitLoader Unit ArtifactImage where
  capabilities :=
    { setHost := fun image _ _ => pure (.ok (), image)
      setup := fun image => pure (.ok ⟨image.debug.isSome, .null⟩, image)
      run := fun image _ => pure (.ok ⟨image.debug.isSome, .null⟩, image)
      reset := fun image => pure (.ok (), image)
      supportsReset := fun _ _ => true
      isUsable := fun _ _ => true
      release := fun _ => pure () }
  bind request := pure (.ok request.image)

def UnitLoader.mirrorAnswering : UnitLoader.mirror.Answering where
  image := id
  setup image := .ok ⟨image.debug.isSome, .null⟩
  run image _ := .ok ⟨image.debug.isSome, .null⟩
  reset _ := .ok ()
  bound h := (Except.ok.inj h).symm
  answers_setup _ _ := ⟨rfl, rfl⟩
  answers_run _ _ _ := ⟨rfl, rfl⟩
  answers_reset _ _ := ⟨rfl, rfl⟩

def mirrorEngine : Engine Unit ArtifactImage where
  environment := ⟨.standard, .ofConfig .standard, .builtin, ⟨"programs/.shadow/1-000000"⟩⟩
  compiler _ := pure (.ok [])
  loader := .mirror

/-- The artifact of the lamp is in the store. -/
def storedLamp : EngineState Unit ArtifactImage :=
  ⟨.withOneArtifact, .unshared, .ofSource "lamp" "", .unloaded, []⟩

/-- What is stored of the lamp. -/
def lampImage : ArtifactImage := ⟨⟨#[1]⟩, none⟩

/-- Somebody removes the artifact of the lamp. -/
def lampEvicted : EngineEvent Unit :=
  .elsewhere (fun w => w.withFiles ⟨[], [(["programs"], .directory)]⟩) id

/-- The lamp is run, and unloaded. -/
def lampUnloaded : EngineState Unit ArtifactImage :=
  mirrorEngine.after (mirrorEngine.load.run storedLamp).2 [.order (.run ""), .order .unload]

theorem lamp_outlives_its_artifact :
    (∃ request ∈ mirrorEngine.requests (mirrorEngine.after storedLamp [.order .load, lampEvicted])
        (.order (.run "")), request.image = lampImage) ∧
      (mirrorEngine.load.run storedLamp).1 = true ∧
      (mirrorEngine.load.run lampUnloaded).1 = true ∧
      (mirrorEngine.load.run lampUnloaded).2.slot.image? = some lampImage ∧
      ∃ given, mirrorEngine.answer (mirrorEngine.load.run storedLamp).2 (.run "") = some given ∧
        mirrorEngine.answer (mirrorEngine.load.run lampUnloaded).2 (.run "") = some given := by
  obtain ⟨-, hcarried, -, -, hagain⟩ := Engine.loaded_units_are_snapshots mirrorEngine
  have hread : mirrorEngine.latestRead none storedLamp [.order .load, lampEvicted] =
        some lampImage ∧
      (mirrorEngine.requests (mirrorEngine.after storedLamp [.order .load, lampEvicted])
        (.order (.run ""))).length = 1 ∧
      (mirrorEngine.load.run storedLamp).1 = true ∧
      (mirrorEngine.load.run storedLamp).2.slot.image? = some lampImage ∧
      (mirrorEngine.answer (mirrorEngine.load.run storedLamp).2 (.run "")).isSome = true ∧
      (mirrorEngine.answer (mirrorEngine.load.run lampUnloaded).2 (.run "")).isSome = true := by
    decide +kernel
  obtain ⟨hlatest, hasked, hloaded, himage, hgiven, hlater⟩ := hread
  have hfiles : (mirrorEngine.cleared lampUnloaded).world.host.files =
      (mirrorEngine.cleared storedLamp).world.host.files := rfl
  obtain ⟨request, hrequest⟩ := List.length_eq_one_iff.mp hasked
  have hmem : request ∈ mirrorEngine.requests (mirrorEngine.after storedLamp
      [.order .load, lampEvicted]) (.order (.run "")) := by
    rw [hrequest]
    exact List.mem_singleton_self request
  have hstored : mirrorEngine.environment.store.SameStored storedLamp.program.address
      (mirrorEngine.cleared storedLamp).world.host.files
      (mirrorEngine.cleared lampUnloaded).world.host.files := by
    rw [hfiles]
    exact fun _ _ => ⟨rfl, fun _ _ => rfl⟩
  obtain ⟨hloaded', hslot, hsame⟩ := hagain storedLamp lampUnloaded rfl hstored hloaded
  obtain ⟨given, hgiven⟩ := Option.isSome_iff_exists.mp hgiven
  obtain ⟨later, hlater⟩ := Option.isSome_iff_exists.mp hlater
  have heq := hsame UnitLoader.mirrorAnswering [] [] (by simp) rfl _ given later hgiven hlater
  refine ⟨⟨request, hmem, ?_⟩, hloaded, hloaded', by rw [hslot, himage], given, hgiven, ?_⟩
  · exact Option.some.inj ((hcarried storedLamp _ _ request hmem).symm.trans hlatest)
  · rw [hlater, heq]

end Lamp

end Automation
