import Automation.Proofs.Engine.Binding
import Automation.Proofs.Engine.Course

/-
How an engine and its registry keep in step.

For one engine, a registry and a slot change together in five ways: a context is forgotten,
retired, bound, or bound and retired at once, or nothing happens.  Whatever an engine is told to
do comes down to a row of these, and all that follows is read off the five ways.
-/

namespace Automation

/-- The registry an engine uses and the generation it is bound for. -/
structure Tenure where
  registry : Registry
  bound : Option Generation

namespace Tenure

/-- The ways from one tenure of an address to another, with the generations opened on the way. -/
inductive Changes (address : String) : Tenure → List Generation → Tenure → Prop where
  | stays (t : Tenure) : Changes address t [] t
  /-- A generation that was retired by somebody else is forgotten. -/
  | forgets {r : Registry} {g : Generation} :
      r.isLive address g = false → Changes address ⟨r, some g⟩ [] ⟨r, none⟩
  | retires {r : Registry} {g : Generation} :
      r.isLive address g = true → Changes address ⟨r, some g⟩ [] ⟨r.retired address, none⟩
  | binds {r : Registry} :
      r.liveGeneration address = none →
        Changes address ⟨r, none⟩ [r.lastGeneration address + 1]
          ⟨r.opened address, some (r.lastGeneration address + 1)⟩
  /-- A context is opened, but what was to be bound in it cannot be. -/
  | fails {r : Registry} :
      r.liveGeneration address = none →
        Changes address ⟨r, none⟩ [r.lastGeneration address + 1]
          ⟨(r.opened address).retired address, none⟩
  | follows {t u v : Tenure} {first second : List Generation} :
      Changes address t first u → Changes address u second v →
        Changes address t (first ++ second) v

namespace Changes

variable {address other : String} {t u : Tenure} {openings : List Generation}

/-- Other addresses are left alone. -/
theorem elsewhere (h : Changes address t openings u) (hother : other ≠ address) :
    u.registry.liveGeneration other = t.registry.liveGeneration other ∧
      u.registry.lastGeneration other = t.registry.lastGeneration other := by
  induction h with
  | stays => exact ⟨rfl, rfl⟩
  | forgets => exact ⟨rfl, rfl⟩
  | retires => simp [hother]
  | binds => simp [hother]
  | fails => simp [hother]
  | follows _ _ first second => exact ⟨second.1.trans first.1, second.2.trans first.2⟩

/-- Claims are made for the same owner all along. -/
theorem claims (h : Changes address t openings u) : u.registry.claims = t.registry.claims := by
  induction h with
  | stays => rfl
  | forgets => rfl
  | retires => simp
  | binds => simp
  | fails => simp
  | follows _ _ first second => exact second.trans first

/-- The counter of the address never goes back. -/
theorem lastGeneration_le (h : Changes address t openings u) :
    t.registry.lastGeneration address ≤ u.registry.lastGeneration address := by
  induction h with
  | stays => exact Nat.le_refl _
  | forgets => exact Nat.le_refl _
  | retires => simp
  | binds => simp
  | fails => simp
  | follows _ _ first second => exact Nat.le_trans first second

/-- The generations that are opened are new ones. -/
theorem mem_openings (h : Changes address t openings u) {g : Generation} (hg : g ∈ openings) :
    t.registry.lastGeneration address < g ∧ g ≤ u.registry.lastGeneration address := by
  induction h with
  | stays => cases hg
  | forgets => cases hg
  | retires => cases hg
  | binds =>
      obtain rfl := List.mem_singleton.mp hg
      simp
  | fails =>
      obtain rfl := List.mem_singleton.mp hg
      simp
  | follows hfirst hsecond first second =>
      rcases List.mem_append.mp hg with hg | hg
      · exact ⟨(first hg).1, Nat.le_trans (first hg).2 hsecond.lastGeneration_le⟩
      · exact ⟨Nat.lt_of_le_of_lt hfirst.lastGeneration_le (second hg).1, (second hg).2⟩

/-- They are opened in order. -/
theorem pairwise_openings (h : Changes address t openings u) : openings.Pairwise (· < ·) := by
  induction h with
  | stays => exact List.Pairwise.nil
  | forgets => exact List.Pairwise.nil
  | retires => exact List.Pairwise.nil
  | binds => exact List.pairwise_singleton _ _
  | fails => exact List.pairwise_singleton _ _
  | follows hfirst hsecond first second =>
      refine List.pairwise_append.mpr ⟨first, second, ?_⟩
      intro g hg later hlater
      exact Nat.lt_of_le_of_lt (hfirst.mem_openings hg).2 (hsecond.mem_openings hlater).1

/-- An engine that is bound for the live generation of its address, or for none when there is none,
stays so. -/
theorem inStep (h : Changes address t openings u)
    (ht : t.registry.liveGeneration address = t.bound) :
    u.registry.liveGeneration address = u.bound := by
  induction h with
  | stays => exact ht
  | forgets hdead =>
      rw [Registry.isLive, ht] at hdead
      simp at hdead
  | retires => simp
  | binds => simp
  | fails => simp
  | follows _ _ first second => exact second (first ht)

/-- An engine without a context leaves the live generation of another one alone. -/
theorem waits (h : Changes address t openings u) (hbound : t.bound = none)
    (hlive : t.registry.liveGeneration address ≠ none) : u = t ∧ openings = [] := by
  induction h with
  | stays => exact ⟨rfl, rfl⟩
  | forgets => cases hbound
  | retires => cases hbound
  | binds hnone => exact absurd hnone hlive
  | fails hnone => exact absurd hnone hlive
  | follows _ _ first second =>
      obtain ⟨rfl, rfl⟩ := first hbound hlive
      obtain ⟨rfl, rfl⟩ := second hbound hlive
      exact ⟨rfl, rfl⟩

/-- A generation that an engine is bound for was opened when it was bound. -/
theorem bound_cases (h : Changes address t openings u) {g : Generation}
    (hg : u.bound = some g) : t.bound = some g ∨ g ∈ openings := by
  induction h with
  | stays => exact Or.inl hg
  | forgets => cases hg
  | retires => cases hg
  | binds =>
      obtain rfl := Option.some.inj hg
      exact Or.inr (List.mem_singleton_self _)
  | fails => cases hg
  | follows _ _ first second =>
      rcases second hg with hg | hg
      · exact (first hg).imp_right (List.mem_append_left _)
      · exact Or.inr (List.mem_append_right _ hg)

end Changes

end Tenure

variable {τ ε α β : Type}

/-- The tenure of what an engine works on. -/
def EngineState.tenure (s : EngineState τ ε) : Tenure := ⟨s.registry, s.slot.generation?⟩

/-- The generation that a moment opens, with its address. -/
def Moment.opening? (moment : Moment τ ε) : Option (String × Generation) :=
  match moment.deed with
  | .opened address generation => some (address, generation)
  | .asked .. => none

namespace EngineAct

/-- The act keeps the address of the program, the registry, and the generation of the context. -/
def LeavesTenure (act : EngineAct τ ε α) : Prop :=
  ∀ s, (act.run s).2.program.address = s.program.address ∧ (act.run s).2.tenure = s.tenure

theorem leavesTenure_pure (value : α) : (pure value : EngineAct τ ε α).LeavesTenure :=
  fun _ => ⟨rfl, rfl⟩

theorem LeavesTenure.bind {act : EngineAct τ ε α} {f : α → EngineAct τ ε β}
    (hact : act.LeavesTenure) (hf : ∀ value, (f value).LeavesTenure) :
    (act >>= f).LeavesTenure := by
  intro s
  obtain ⟨haddress, htenure⟩ := hact s
  obtain ⟨haddress', htenure'⟩ := hf (act.run s).1 (act.run s).2
  exact ⟨haddress'.trans haddress, htenure'.trans htenure⟩

theorem leavesTenure_inWorld (act : Act τ α) :
    (inWorld act : EngineAct τ ε α).LeavesTenure :=
  fun _ => ⟨rfl, rfl⟩

theorem leavesTenure_program : (program : EngineAct τ ε ProgramBlock).LeavesTenure :=
  fun _ => ⟨rfl, rfl⟩

theorem leavesTenure_address : (address : EngineAct τ ε String).LeavesTenure :=
  fun _ => ⟨rfl, rfl⟩

theorem leavesTenure_slot : (slot : EngineAct τ ε (Slot ε)).LeavesTenure :=
  fun _ => ⟨rfl, rfl⟩

theorem leavesTenure_notify (notice : Notice) :
    (notify notice : EngineAct τ ε Unit).LeavesTenure :=
  fun _ => ⟨rfl, rfl⟩

theorem leavesTenure_editProgram {f : ProgramBlock → ProgramBlock}
    (hf : ∀ p, (f p).address = p.address) : (editProgram f : EngineAct τ ε Unit).LeavesTenure :=
  fun s => ⟨hf s.program, rfl⟩

theorem leavesTenure_forM {act : α → EngineAct τ ε Unit} (hact : ∀ value, (act value).LeavesTenure)
    (values : List α) : (values.forM act).LeavesTenure := by
  induction values with
  | nil => exact leavesTenure_pure _
  | cons value rest ih => exact (hact value).bind fun _ => ih

/-- An answer may come with another entry, but the generation stays. -/
theorem leavesTenure_ask (call : Act τ (α × ε)) :
    (Engine.ask call : EngineAct τ ε α).LeavesTenure := by
  intro s
  have hslot : (s.slot.withEntry (call.run s.world).1.2).generation? = s.slot.generation? := by
    cases s.slot with
    | unloaded => rfl
    | loaded image context => cases context <;> rfl
  exact ⟨rfl, congrArg (Tenure.mk s.registry) hslot⟩

end EngineAct

namespace Watched

open EngineAct

/-- Told at this state, an engine keeps the address of its program and opens nothing but contexts
of it. -/
def OrderlyAt (told : Watched τ ε α) (s : EngineState τ ε) : Prop :=
  (told.act.run s).2.program.address = s.program.address ∧
    ∃ openings, (told.moments s).filterMap Moment.opening? =
        openings.map (fun generation => (s.program.address, generation)) ∧
      Tenure.Changes s.program.address s.tenure openings (told.act.run s).2.tenure

theorem orderlyAt_pure (value : α) (s : EngineState τ ε) :
    (pure value : Watched τ ε α).OrderlyAt s :=
  ⟨rfl, [], rfl, .stays _⟩

theorem OrderlyAt.bind {told : Watched τ ε α} {f : α → Watched τ ε β} {s : EngineState τ ε}
    (hfirst : told.OrderlyAt s)
    (hsecond : (f (told.act.run s).1).OrderlyAt (told.act.run s).2) :
    (told >>= f).OrderlyAt s := by
  obtain ⟨haddress, first, hopened, hchanges⟩ := hfirst
  obtain ⟨haddress', second, hopened', hchanges'⟩ := hsecond
  rw [haddress] at haddress' hopened' hchanges'
  refine ⟨haddress', first ++ second, ?_, hchanges.follows hchanges'⟩
  rw [moments_bind, List.filterMap_append, hopened, hopened', List.map_append]

/-- An act that leaves the tenure alone is orderly. -/
theorem orderlyAt_quietly {act : EngineAct τ ε α} (hact : act.LeavesTenure)
    (s : EngineState τ ε) : (quietly act).OrderlyAt s := by
  refine ⟨(hact s).1, [], rfl, ?_⟩
  rw [act_quietly, (hact s).2]
  exact .stays _

/-- A question is orderly. -/
theorem orderlyAt_asking (request : Request) (context : BoundContext ε)
    (call : Act τ (α × ε)) (s : EngineState τ ε) :
    (asking request context call).OrderlyAt s := by
  refine ⟨(leavesTenure_ask call s).1, [], rfl, ?_⟩
  rw [act_asking, (leavesTenure_ask call s).2]
  exact .stays _

variable (e : Engine τ ε)

/-- Acts one after the other that are not watched. -/
theorem OrderlyAt.quietly_bind {act : EngineAct τ ε α} {f : α → EngineAct τ ε β}
    {s : EngineState τ ε} (hfirst : (quietly act).OrderlyAt s)
    (hsecond : (quietly (f (act.run s).1)).OrderlyAt (act.run s).2) :
    (quietly (act >>= f)).OrderlyAt s :=
  hfirst.bind (f := fun value => quietly (f value)) hsecond

theorem orderlyAt_bindImage {image : ArtifactImage} {s : EngineState τ ε}
    (hslot : s.slot.generation? = none) :
    (bindImage e s.program.address image).OrderlyAt s := by
  rw [OrderlyAt, EngineState.tenure, hslot, act_bindImage]
  rcases e.bindImage_cases s.program.address image s with
    ⟨hnone, w, hrun⟩ | ⟨hlive, hone, ⟨w, entry, hrun⟩ | ⟨w, hrun⟩⟩
  · rw [hrun, hnone]
    refine ⟨rfl, [], rfl, ?_⟩
    rw [EngineState.tenure, hslot]
    exact .stays _
  · rw [hrun, hone]
    exact ⟨rfl, [s.registry.lastGeneration s.program.address + 1], rfl, .binds hlive⟩
  · rw [hrun, hone]
    refine ⟨rfl, [s.registry.lastGeneration s.program.address + 1], rfl, ?_⟩
    rw [EngineState.tenure, hslot]
    exact .fails hlive

theorem orderlyAt_dropOutdated {image : ArtifactImage} {context : BoundContext ε}
    {s : EngineState τ ε} (hslot : s.slot = .loaded image (some context)) :
    (quietly (e.dropOutdated s.program.address image context)).OrderlyAt s := by
  have htenure : s.tenure = ⟨s.registry, some context.generation⟩ := by
    rw [EngineState.tenure, hslot]
    rfl
  rw [OrderlyAt, act_quietly, htenure]
  rcases e.dropOutdated_cases s.program.address image context s with
    ⟨_, hrun⟩ | ⟨hdead, w, hrun⟩ | ⟨hlive, w, hrun⟩
  · rw [hrun, htenure]
    exact ⟨rfl, [], rfl, .stays _⟩
  · rw [hrun]
    exact ⟨rfl, [], rfl, .forgets hdead⟩
  · rw [hrun]
    exact ⟨rfl, [], rfl, .retires hlive⟩

theorem orderlyAt_ensureBound (s : EngineState τ ε) : (ensureBound e).OrderlyAt s := by
  refine (orderlyAt_quietly leavesTenure_address s).bind ?_
  refine (orderlyAt_quietly leavesTenure_slot s).bind ?_
  simp only [act_quietly, run_address, run_slot]
  split
  · exact orderlyAt_pure _ s
  · next hslot => exact orderlyAt_bindImage e (by rw [hslot]; rfl)
  · next image context hslot =>
    refine (orderlyAt_dropOutdated e hslot).bind ?_
    simp only [act_quietly]
    rcases e.dropOutdated_cases s.program.address image context s with
      ⟨_, hrun⟩ | ⟨_, w, hrun⟩ | ⟨_, w, hrun⟩
    · rw [hrun]
      exact orderlyAt_pure _ s
    · rw [hrun]
      exact orderlyAt_bindImage e rfl
    · rw [hrun]
      exact orderlyAt_bindImage e rfl

theorem orderlyAt_teardown (s : EngineState τ ε) : (quietly e.teardown).OrderlyAt s := by
  obtain ⟨w, hrun⟩ := e.teardown_run s
  rw [OrderlyAt, act_quietly, hrun, EngineState.tenure]
  refine ⟨rfl, [], rfl, ?_⟩
  cases s.slot.generation? with
  | none => exact .stays _
  | some generation =>
      change Tenure.Changes s.program.address ⟨s.registry, some generation⟩ []
        ⟨if s.registry.isLive s.program.address generation then
          s.registry.retired s.program.address else s.registry, none⟩
      split
      · next hlive => exact .retires hlive
      · next hdead => exact .forgets (by simpa using hdead)

theorem leavesTenure_beginCompile :
    (Engine.beginCompile : EngineAct τ ε CompileJob).LeavesTenure := by
  refine leavesTenure_program.bind fun p => ?_
  exact (leavesTenure_editProgram fun _ => by rfl).bind fun _ => leavesTenure_pure _

theorem leavesTenure_failCompile (errors : List ProgramError) :
    (Engine.failCompile errors : EngineAct τ ε (List ProgramError)).LeavesTenure :=
  (leavesTenure_editProgram fun _ => by rfl).bind fun _ => leavesTenure_pure errors

theorem leavesTenure_abandon (staged : Path) (errors : List ProgramError) :
    (e.abandon staged errors).LeavesTenure :=
  (leavesTenure_inWorld _).bind fun _ => leavesTenure_failCompile errors

theorem leavesTenure_invokeCompiler (job : CompileJob) (staged : Path) :
    (e.invokeCompiler job staged).LeavesTenure := by
  refine (leavesTenure_inWorld _).bind fun answer => ?_
  split
  · exact leavesTenure_pure _
  · exact (leavesTenure_forM (fun _ => leavesTenure_notify _) _).bind fun _ => leavesTenure_pure _

theorem leavesTenure_settle (job : CompileJob) (staged : Path) (errors : List ProgramError) :
    (e.settle job staged errors).LeavesTenure := by
  rw [Engine.settle]
  split
  · exact leavesTenure_abandon e _ _
  · refine (leavesTenure_inWorld _).bind fun outcome => ?_
    split
    · exact leavesTenure_abandon e _ _
    · exact (leavesTenure_editProgram fun _ => by rfl).bind fun _ => leavesTenure_pure _

theorem leavesTenure_compile : e.compile.LeavesTenure := by
  refine leavesTenure_beginCompile.bind fun job => ?_
  refine (leavesTenure_inWorld _).bind fun staged => ?_
  split
  · exact leavesTenure_failCompile _
  · exact (leavesTenure_invokeCompiler e _ _).bind fun errors => leavesTenure_settle e _ _ _

/-- A slot without a context may take another one without. -/
theorem orderlyAt_setSlot {slot : Slot ε} {s : EngineState τ ε}
    (hbefore : s.slot.generation? = none) (hafter : slot.generation? = none) :
    (quietly (setSlot slot)).OrderlyAt s := by
  refine ⟨rfl, [], rfl, ?_⟩
  rw [act_quietly, run_setSlot, EngineState.tenure, EngineState.tenure, hbefore, hafter]
  exact .stays _

/-- Loading tears down what was loaded before, so that the new image is not bound. -/
theorem orderlyAt_load (s : EngineState τ ε) : (quietly e.load).OrderlyAt s := by
  rw [Engine.load]
  refine (orderlyAt_quietly leavesTenure_slot s).quietly_bind ?_
  change (quietly (_ : EngineAct τ ε Bool)).OrderlyAt s
  extract_lets copy
  have hcopy : ∀ s' : EngineState τ ε, s'.slot.generation? = none →
      (quietly (copy ())).OrderlyAt s' := by
    intro s' hslot
    refine (orderlyAt_quietly leavesTenure_address s').quietly_bind ?_
    refine (orderlyAt_quietly (leavesTenure_inWorld _) s').quietly_bind ?_
    split
    · exact (orderlyAt_setSlot hslot rfl).quietly_bind (orderlyAt_pure true _)
    · refine orderlyAt_quietly ((leavesTenure_inWorld _).bind fun problem => ?_) _
      refine LeavesTenure.bind (leavesTenure_editProgram fun p => ?_) fun _ => leavesTenure_pure _
      split <;> rfl
  rw [run_slot]
  split
  · refine (orderlyAt_teardown e s).quietly_bind ?_
    obtain ⟨w, hrun⟩ := e.teardown_run s
    rw [hrun]
    exact hcopy _ rfl
  · next hempty =>
    refine hcopy s ?_
    cases hslot : s.slot with
    | unloaded => rfl
    | loaded image context => simp [hslot, Slot.isLoaded] at hempty

theorem orderlyAt_setup (s : EngineState τ ε) : (setup e).OrderlyAt s := by
  refine (orderlyAt_ensureBound e s).bind ?_
  split
  · exact orderlyAt_pure _ _
  · refine (orderlyAt_asking _ _ _ _).bind ?_
    split
    · exact orderlyAt_pure _ _
    · refine (orderlyAt_quietly leavesTenure_program _).bind ?_
      extract_lets activated answer
      split
      · refine (orderlyAt_quietly (leavesTenure_inWorld _) _).bind ?_
        exact (orderlyAt_quietly (leavesTenure_editProgram fun _ => by rfl) _).bind
          (orderlyAt_pure _ _)
      · exact orderlyAt_pure _ _

theorem orderlyAt_run (options : String) (s : EngineState τ ε) : (run e options).OrderlyAt s := by
  refine (orderlyAt_ensureBound e s).bind ?_
  split
  · exact orderlyAt_pure _ _
  · refine (orderlyAt_asking _ _ _ _).bind ?_
    refine (orderlyAt_quietly (leavesTenure_inWorld _) _).bind ?_
    exact (orderlyAt_quietly (leavesTenure_editProgram fun _ => by rfl) _).bind
      (orderlyAt_pure _ _)

theorem orderlyAt_reset (s : EngineState τ ε) : (reset e).OrderlyAt s := by
  refine (orderlyAt_quietly leavesTenure_slot s).bind ?_
  split
  · exact orderlyAt_pure _ _
  · refine (orderlyAt_quietly (leavesTenure_inWorld _) _).bind ?_
    split
    · exact orderlyAt_asking _ _ _ _
    · exact orderlyAt_pure _ _

theorem orderlyAt_unload (s : EngineState τ ε) : (unload e).OrderlyAt s := by
  refine (orderlyAt_reset e s).bind ?_
  refine (orderlyAt_quietly (leavesTenure_editProgram fun _ => by rfl) _).bind ?_
  exact orderlyAt_teardown e _

theorem orderlyAt_dispose (s : EngineState τ ε) : (dispose e).OrderlyAt s := by
  refine (orderlyAt_quietly leavesTenure_slot s).bind ?_
  split
  · exact orderlyAt_unload e _
  · exact orderlyAt_pure _ _

end Watched

/-- Whatever an engine is told to do, it is orderly. -/
theorem Order.orderlyAt (e : Engine τ ε) (order : Order) (s : EngineState τ ε) :
    (order.watched e).OrderlyAt s := by
  cases order with
  | load => exact (Watched.orderlyAt_load e s).bind (Watched.orderlyAt_pure _ _)
  | unload => exact Watched.orderlyAt_unload e s
  | compile =>
      exact (Watched.orderlyAt_quietly (Watched.leavesTenure_compile e) s).bind
        (Watched.orderlyAt_pure _ _)
  | setup => exact (Watched.orderlyAt_setup e s).bind (Watched.orderlyAt_pure _ _)
  | run options => exact (Watched.orderlyAt_run e options s).bind (Watched.orderlyAt_pure _ _)
  | reset => exact (Watched.orderlyAt_reset e s).bind (Watched.orderlyAt_pure _ _)

end Automation
