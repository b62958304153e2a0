import Automation.Proofs.Engine.Binding
import Automation.Proofs.Engine.Course

/-
Which generations are asked.

Before `setup` and `run` a context is made sure to be live; `reset` asks whatever is bound.  So the
only question that can reach a retired generation is `reset`, and it does so exactly when an engine
resets, unloads or is given up while it holds such a context and the unit supports it.
-/

namespace Automation

variable {τ ε : Type}

/-- The entry that is asked belongs to a generation that is not live. -/
def Moment.IsStale (moment : Moment τ ε) : Prop :=
  ∃ request context, moment.deed = .asked request context ∧
    moment.state.registry.isLive moment.state.program.address context.generation = false

/-- What an engine works on has a bound unit that supports `reset` and is not live. -/
def EngineState.ResetsStale (e : Engine τ ε) (s : EngineState τ ε) : Prop :=
  ∃ context, s.slot.context? = some context ∧
    e.loader.capabilities.supportsReset context.entry s.world = true ∧
      s.registry.isLive s.program.address context.generation = false

instance (e : Engine τ ε) (s : EngineState τ ε) : Decidable (s.ResetsStale e) :=
  decidable_of_iff
    (s.slot.context?.any (fun context =>
      e.loader.capabilities.supportsReset context.entry s.world &&
        !s.registry.isLive s.program.address context.generation) = true)
    (by simp [EngineState.ResetsStale, Option.any_eq_true])

namespace Watched

open EngineAct

variable (e : Engine τ ε)

/-- Nothing is asked while an image is bound. -/
theorem not_isStale_of_mem_bindImage {address : String} {image : ArtifactImage}
    {s : EngineState τ ε} {moment : Moment τ ε}
    (h : moment ∈ (bindImage e address image).moments s) : ¬ moment.IsStale := by
  rintro ⟨request, context, hasked, _⟩
  rcases e.bindImage_cases address image s with ⟨hnone, _⟩ | ⟨_, hone, _⟩
  · rw [hnone] at h
    exact List.not_mem_nil h
  · rw [hone, List.mem_singleton] at h
    subst h
    cases hasked

/-- Nor is anything asked while a context is made sure of. -/
theorem not_isStale_of_mem_ensureBound {s : EngineState τ ε} {moment : Moment τ ε}
    (h : moment ∈ (ensureBound e).moments s) : ¬ moment.IsStale := by
  simp only [ensureBound, moments_bind, moments_quietly, List.nil_append] at h
  split at h
  · cases h
  · exact not_isStale_of_mem_bindImage e h
  · rw [moments_bind, moments_quietly, List.nil_append] at h
    split at h
    · cases h
    · exact not_isStale_of_mem_bindImage e h

/-- A context that was made sure of is not stale when it is asked next. -/
theorem not_isStale_of_ensureBound {s : EngineState τ ε} {request : Request}
    {context : BoundContext ε} (h : ((ensureBound e).act.run s).1 = some context) :
    ¬ (⟨.asked request context, ((ensureBound e).act.run s).2⟩ : Moment τ ε).IsStale := by
  rw [act_ensureBound] at h ⊢
  obtain ⟨hlive, hprogram, _⟩ := e.ensureBound_some h
  rintro ⟨_, _, hasked, hstale⟩
  cases hasked
  rw [hprogram, hlive] at hstale
  cases hstale

theorem not_isStale_of_mem_setup {s : EngineState τ ε} {moment : Moment τ ε}
    (h : moment ∈ (setup e).moments s) : ¬ moment.IsStale := by
  rw [setup, moments_bind, List.mem_append] at h
  rcases h with h | h
  · exact not_isStale_of_mem_ensureBound e h
  · split at h
    · cases h
    · next context hbound =>
      rw [moments_bind, moments_asking, List.mem_append, List.mem_singleton] at h
      rcases h with rfl | h
      · exact not_isStale_of_ensureBound e hbound
      · split at h
        · cases h
        · simp only [moments_bind, moments_quietly, List.nil_append] at h
          split at h <;> cases h

theorem not_isStale_of_mem_run {options : String} {s : EngineState τ ε} {moment : Moment τ ε}
    (h : moment ∈ (run e options).moments s) : ¬ moment.IsStale := by
  rw [run, moments_bind, List.mem_append] at h
  rcases h with h | h
  · exact not_isStale_of_mem_ensureBound e h
  · split at h
    · cases h
    · next context hbound =>
      simp only [moments_bind, moments_asking, moments_quietly, moments_pure, List.append_nil,
        List.mem_singleton] at h
      subst h
      exact not_isStale_of_ensureBound e hbound

/-- Resetting asks at most once, at once, and without a look at the registry. -/
theorem moments_reset (s : EngineState τ ε) :
    (reset e).moments s =
      match s.slot.context? with
      | none => []
      | some context =>
          if e.loader.capabilities.supportsReset context.entry s.world then
            [⟨.asked .reset context, s⟩]
          else [] := by
  simp only [reset, moments_bind, moments_quietly, List.nil_append, act_quietly, run_slot]
  cases s.slot.context? with
  | none => rfl
  | some context =>
      simp only [moments_bind, moments_quietly, List.nil_append, act_quietly]
      change ((if e.loader.capabilities.supportsReset context.entry s.world = true then
        asking .reset context (e.loader.capabilities.reset context.entry)
        else pure (.ok ()) : Watched τ ε _).moments s) = _
      split <;> rfl

theorem moments_unload (s : EngineState τ ε) : (unload e).moments s = (reset e).moments s := by
  simp [unload]

theorem moments_dispose (s : EngineState τ ε) : (dispose e).moments s = (reset e).moments s := by
  rw [moments_reset, dispose, moments_bind, moments_quietly, List.nil_append, act_quietly,
    run_slot]
  cases hslot : s.slot with
  | unloaded => rfl
  | loaded image context =>
      change (unload e).moments s = _
      rw [moments_unload, moments_reset, hslot]

/-- All that is stale in a reset is the reset itself. -/
theorem of_isStale_of_mem_reset {s : EngineState τ ε} {moment : Moment τ ε}
    (h : moment ∈ (reset e).moments s) (hstale : moment.IsStale) :
    (∃ context, moment.deed = .asked .reset context) ∧ s.ResetsStale e := by
  rw [moments_reset] at h
  split at h
  · cases h
  · next context hcontext =>
    split at h
    · next hsupports =>
      obtain rfl := List.mem_singleton.mp h
      obtain ⟨_, _, hasked, hlive⟩ := hstale
      cases hasked
      exact ⟨⟨context, rfl⟩, context, hcontext, hsupports, hlive⟩
    · cases h

theorem exists_isStale_of_resetsStale {s : EngineState τ ε} (h : s.ResetsStale e) :
    ∃ moment ∈ (reset e).moments s, moment.IsStale := by
  obtain ⟨context, hcontext, hsupports, hlive⟩ := h
  refine ⟨⟨.asked .reset context, s⟩, ?_, .reset, context, rfl, hlive⟩
  simp [moments_reset, hcontext, hsupports]

end Watched

/-- The orders that reset. -/
def Order.resets : Order → Bool
  | .reset | .unload => true
  | _ => false

/-- Only an order that resets asks anything stale, and then in the reset. -/
theorem Order.of_isStale_of_mem_watched (e : Engine τ ε) (order : Order) {s : EngineState τ ε}
    {moment : Moment τ ε} (h : moment ∈ (order.watched e).moments s) (hstale : moment.IsStale) :
    order.resets = true ∧ moment ∈ (Watched.reset e).moments s := by
  cases order with
  | load => cases h
  | compile => cases h
  | unload => exact ⟨rfl, Watched.moments_unload e s ▸ h⟩
  | reset => exact ⟨rfl, by simpa [watched] using h⟩
  | setup =>
      have hmem : moment ∈ (Watched.setup e).moments s := by simpa [watched] using h
      exact absurd hstale (Watched.not_isStale_of_mem_setup e hmem)
  | run options =>
      have hmem : moment ∈ (Watched.run e options).moments s := by simpa [watched] using h
      exact absurd hstale (Watched.not_isStale_of_mem_run e hmem)

theorem Order.moments_watched_of_resets (e : Engine τ ε) {order : Order}
    (h : order.resets = true) (s : EngineState τ ε) :
    (order.watched e).moments s = (Watched.reset e).moments s := by
  cases order with
  | unload => exact Watched.moments_unload e s
  | reset => simp [watched]
  | _ => cases h

/-- An engine on its seat is to reset, unload or be given up while what it has bound is not live
and supports `reset`. -/
def SiteEvent.ResetsStale (event : SiteEvent τ ε) (s : Site τ ε) : Prop :=
  ∃ id record shared p,
    (event = .order id .reset ∨ event = .order id .unload ∨ event = .drop id) ∧
      s.seat? id = some (record, shared, p) ∧
        (s.engineState shared p record).ResetsStale (Site.engineOf shared record)

/-- The moments of an engine that works are those on its seat. -/
theorem Site.mem_momentsOf_iff {α : Type} {s : Site τ ε} {id : Nat}
    {told : Engine τ ε → Watched τ ε α} {moment : Nat × Moment τ ε} :
    moment ∈ s.momentsOf id told ↔
      ∃ record shared p, s.seat? id = some (record, shared, p) ∧
        moment.1 = record.environment ∧
          moment.2 ∈ (told (engineOf shared record)).moments (s.engineState shared p record) := by
  rw [momentsOf]
  cases hseat : s.seat? id with
  | none => simp
  | some seat =>
      obtain ⟨record, shared, p⟩ := seat
      constructor
      · intro h
        obtain ⟨inner, hinner, rfl⟩ := List.mem_map.mp h
        exact ⟨record, shared, p, rfl, rfl, hinner⟩
      · rintro ⟨_, _, _, hsame, henvironment, hinner⟩
        cases hsame
        exact List.mem_map.mpr ⟨moment.2, hinner, Prod.ext henvironment.symm rfl⟩

namespace SiteEvent

/-- All that an event asks that is stale are resets, and the event is one that resets. -/
theorem of_isStale_of_mem_moments {event : SiteEvent τ ε} {s : Site τ ε}
    {moment : Nat × Moment τ ε} (h : moment ∈ event.moments s) (hstale : moment.2.IsStale) :
    (∃ context, moment.2.deed = .asked .reset context) ∧ event.ResetsStale s := by
  cases event with
  | order id order =>
      rw [moments_order] at h
      obtain ⟨record, shared, p, hseat, _, hmem⟩ := Site.mem_momentsOf_iff.mp h
      obtain ⟨hresets, hmem⟩ := order.of_isStale_of_mem_watched _ hmem hstale
      obtain ⟨hreset, hat⟩ := Watched.of_isStale_of_mem_reset _ hmem hstale
      refine ⟨hreset, id, record, shared, p, ?_, hseat, hat⟩
      cases order with
      | reset => exact Or.inl rfl
      | unload => exact Or.inr (Or.inl rfl)
      | _ => cases hresets
  | drop id =>
      rw [moments_drop] at h
      obtain ⟨record, shared, p, hseat, _, hmem⟩ := Site.mem_momentsOf_iff.mp h
      rw [Watched.moments_dispose] at hmem
      obtain ⟨hreset, hat⟩ := Watched.of_isStale_of_mem_reset _ hmem hstale
      exact ⟨hreset, id, record, shared, p, Or.inr (Or.inr rfl), hseat, hat⟩
  | _ => cases h

theorem exists_isStale_of_resetsStale {event : SiteEvent τ ε} {s : Site τ ε}
    (h : event.ResetsStale s) : ∃ moment ∈ event.moments s, moment.2.IsStale := by
  obtain ⟨id, record, shared, p, hevent, hseat, hat⟩ := h
  obtain ⟨moment, hmem, hstale⟩ := Watched.exists_isStale_of_resetsStale _ hat
  refine ⟨(record.environment, moment), ?_, hstale⟩
  rcases hevent with rfl | rfl | rfl
  · rw [moments_order]
    refine Site.mem_momentsOf_iff.mpr ⟨record, shared, p, hseat, rfl, ?_⟩
    rwa [Order.moments_watched_of_resets _ rfl]
  · rw [moments_order]
    refine Site.mem_momentsOf_iff.mpr ⟨record, shared, p, hseat, rfl, ?_⟩
    rwa [Order.moments_watched_of_resets _ rfl]
  · rw [moments_drop]
    refine Site.mem_momentsOf_iff.mpr ⟨record, shared, p, hseat, rfl, ?_⟩
    rwa [Watched.moments_dispose]

end SiteEvent

/-- Whatever happens at a site, `setup` and `run` are only ever asked of the live generation of an
address.  A retired generation is asked nothing but `reset`, and it is asked exactly when an
engine that holds it resets, unloads or is given up. -/
theorem Site.only_reset_reaches_retired_generations (s : Site τ ε)
    (events : List (SiteEvent τ ε)) :
    (∀ moment ∈ s.momentsThrough events, moment.2.IsStale →
        ∃ context, moment.2.deed = .asked .reset context) ∧
      ((∃ moment ∈ s.momentsThrough events, moment.2.IsStale) ↔
        ∃ before event rest, events = before ++ event :: rest ∧
          event.ResetsStale (s.after before)) := by
  constructor
  · intro moment hmem hstale
    obtain ⟨_, _, _, _, hmem⟩ := mem_momentsThrough_iff.mp hmem
    exact (SiteEvent.of_isStale_of_mem_moments hmem hstale).1
  · constructor
    · rintro ⟨moment, hmem, hstale⟩
      obtain ⟨before, event, rest, hevents, hmem⟩ := mem_momentsThrough_iff.mp hmem
      exact ⟨before, event, rest, hevents, (SiteEvent.of_isStale_of_mem_moments hmem hstale).2⟩
    · rintro ⟨before, event, rest, hevents, hresets⟩
      obtain ⟨moment, hmem, hstale⟩ := SiteEvent.exists_isStale_of_resetsStale hresets
      exact ⟨moment, mem_momentsThrough_iff.mpr ⟨before, event, rest, hevents, hmem⟩, hstale⟩

/-- An engine runs its program, and somebody else retires the generation. -/
def retiredBehindTheBack : List (SiteEvent Unit Unit) :=
  lampIsRun ++ [.closeContext 0 "lamp" 1]

/-- A retired generation is asked to reset, so not every question goes to a live one. -/
theorem retired_generation_is_asked_to_reset :
    ¬ ∀ moment ∈ (Site.ofWorld World.withOneArtifact).momentsThrough
      (retiredBehindTheBack ++ [.order 2 .reset]), ¬ moment.2.IsStale := by
  intro hfresh
  have hseat : (((Site.ofWorld World.withOneArtifact).after retiredBehindTheBack).seat? 2).any
      (fun (record, shared, p) => decide
        ((((Site.ofWorld World.withOneArtifact).after retiredBehindTheBack).engineState
          shared p record).ResetsStale (Site.engineOf shared record))) = true := by
    decide +kernel
  obtain ⟨⟨record, shared, p⟩, hseat, hat⟩ := Option.any_eq_true _ _ |>.mp hseat
  obtain ⟨moment, hmem, hstale⟩ := SiteEvent.exists_isStale_of_resetsStale
    ⟨2, record, shared, p, Or.inl rfl, hseat, of_decide_eq_true hat⟩
  exact hfresh moment
    (Site.mem_momentsThrough_iff.mpr ⟨retiredBehindTheBack, _, [], rfl, hmem⟩) hstale

end Automation
