import Automation.Proofs.Engine.Correspondence

/-
What was opened in the course of events.

Every generation that an engine opens is entered in a history, with its address and the environment
it was opened in.  The counters of the registries bound the history from above, so that what is
opened next is later than all of it; whatever an engine holds is in it.
-/

namespace Automation

variable {τ ε α : Type}

/-- A generation that was opened for an address in an environment. -/
structure Opening where
  environment : Nat
  address : String
  generation : Generation
deriving Repr, DecidableEq

/-- Of one address in one environment, the first has the smaller generation. -/
def Opening.Earlier (first second : Opening) : Prop :=
  first.environment = second.environment → first.address = second.address →
    first.generation < second.generation

/-- What a moment opens in an environment. -/
def Moment.opens? (entry : Nat × Moment τ ε) : Option Opening :=
  entry.2.opening?.map fun opened => ⟨entry.1, opened.1, opened.2⟩

namespace Site

/-- What the engines of a site open in a course of events, in order. -/
def openingsThrough (s : Site τ ε) (events : List (SiteEvent τ ε)) : List Opening :=
  (s.momentsThrough events).filterMap Moment.opens?

/-- A history has all that is held, in order, and nothing that is still to come. -/
structure Recorded (s : Site τ ε) (history : List Opening) : Prop where
  environment_lt : ∀ opening ∈ history, opening.environment < s.next
  generation_le : ∀ opening ∈ history, ∀ shared,
    Table.get? opening.environment s.environments = some shared →
      opening.generation ≤ shared.registry.lastGeneration opening.address
  ordered : history.Pairwise Opening.Earlier
  held : ∀ id environment address g, s.Holds id environment address g →
    ⟨environment, address, g⟩ ∈ history

theorem recorded_ofWorld (w : World τ) : (ofWorld w : Site τ ε).Recorded [] where
  environment_lt := by simp
  generation_le := by simp
  ordered := List.Pairwise.nil
  held := by simp [ofWorld, Holds]

theorem Recorded.undisturbed {s s' : Site τ ε} {history : List Opening} (h : s.Recorded history)
    (hsame : s.Undisturbed s') : s'.Recorded history where
  environment_lt opening hopening :=
    Nat.lt_of_lt_of_le (h.environment_lt opening hopening) hsame.next_le
  generation_le opening hopening shared' hshared' := by
    obtain ⟨shared, hshared, hregistry⟩ :=
      hsame.registry _ shared' hshared' (h.environment_lt opening hopening)
    rw [← hregistry]
    exact h.generation_le opening hopening shared hshared
  ordered := h.ordered
  held id environment address g hholds :=
    h.held id environment address g ((hsame.holds _ _ _ _).mp hholds)

section Work

variable {s : Site τ ε} {id : Nat} {record : EngineRecord τ ε} {shared : SharedEnvironment}
  {p : ProgramBlock} {after : EngineState τ ε} {history : List Opening}
  {openings : List Generation}

/-- An engine that works adds to the history what it opens. -/
theorem Recorded.work (h : s.Recorded history) (htidy : s.Tidy)
    (hseat : s.seat? id = some (record, shared, p))
    (haddress : after.program.address = p.address)
    (hchanges : Tenure.Changes p.address (s.engineState shared p record).tenure openings
      after.tenure) :
    (s.withEngineState id shared record after).Recorded
      (history ++ openings.map fun g => ⟨record.environment, p.address, g⟩) := by
  obtain ⟨hrecord, hshared, hp⟩ := seat?_eq_some_iff.mp hseat
  have hcounted : ∀ opening ∈ history, opening.environment = record.environment →
      opening.generation ≤ shared.registry.lastGeneration opening.address := by
    intro opening hopening hsame
    exact h.generation_le opening hopening shared (hsame ▸ hshared)
  constructor
  · intro opening hopening
    rcases List.mem_append.mp hopening with hopening | hopening
    · exact h.environment_lt opening hopening
    · obtain ⟨g, _, rfl⟩ := List.mem_map.mp hopening
      exact htidy.environments _ _ hshared
  · intro opening hopening found hfound
    simp only [withEngineState, Table.get?_put] at hfound
    rcases List.mem_append.mp hopening with hopening | hopening
    · split at hfound
      · next hsame =>
        obtain rfl := Option.some.inj hfound
        refine Nat.le_trans (hcounted opening hopening hsame) ?_
        by_cases hat : opening.address = p.address
        · rw [hat]
          exact hchanges.lastGeneration_le
        · exact Nat.le_of_eq (hchanges.elsewhere hat).2.symm
      · exact h.generation_le opening hopening found hfound
    · obtain ⟨g, hg, rfl⟩ := List.mem_map.mp hopening
      rw [if_pos rfl] at hfound
      obtain rfl := Option.some.inj hfound
      exact (hchanges.mem_openings hg).2
  · refine List.pairwise_append.mpr ⟨h.ordered, ?_, ?_⟩
    · refine List.pairwise_map.mpr (hchanges.pairwise_openings.imp ?_)
      intro first second hlt _ _
      exact hlt
    · intro opening hopening later hlater henvironment hat
      obtain ⟨g, hg, rfl⟩ := List.mem_map.mp hlater
      have hle := hcounted opening hopening henvironment
      rw [hat] at hle
      exact Nat.lt_of_le_of_lt hle (hchanges.mem_openings hg).1
  · intro other environment address g hholds
    rw [holds_withEngineState hp haddress] at hholds
    split at hholds
    · obtain ⟨rfl, rfl, hg⟩ := hholds
      rcases hchanges.bound_cases hg with hbefore | hopened
      · exact List.mem_append_left _
          (h.held id _ _ _ ⟨record, p, hrecord, hp, rfl, rfl, hbefore⟩)
      · exact List.mem_append_right _ (List.mem_map.mpr ⟨g, hopened, rfl⟩)
    · exact List.mem_append_left _ (h.held other _ _ _ hholds)

end Work

/-- What an orderly engine opens while it works. -/
theorem filterMap_opens?_momentsOf {s : Site τ ε} {id : Nat} {told : Engine τ ε → Watched τ ε α}
    {record : EngineRecord τ ε} {shared : SharedEnvironment} {p : ProgramBlock}
    {openings : List Generation} (hseat : s.seat? id = some (record, shared, p))
    (hopened : ((told (engineOf shared record)).moments (s.engineState shared p record)).filterMap
      Moment.opening? = openings.map fun g => (p.address, g)) :
    (s.momentsOf id told).filterMap Moment.opens? =
      openings.map fun g => ⟨record.environment, p.address, g⟩ := by
  have hmap : ∀ moments : List (Moment τ ε),
      moments.filterMap (Moment.opens? ∘ fun moment => (record.environment, moment)) =
        (moments.filterMap Moment.opening?).map
          fun opened => ⟨record.environment, opened.1, opened.2⟩ := by
    intro moments
    rw [List.map_filterMap]
    rfl
  rw [momentsOf, hseat, List.filterMap_map, hmap, hopened, List.map_map]
  rfl

/-- All is in step and on record. -/
structure Kept (s : Site τ ε) (history : List Opening) : Prop where
  inStep : s.InStep
  recorded : s.Recorded history

/-- An orderly engine that works keeps it so. -/
theorem Kept.withEngine {s : Site τ ε} {history : List Opening} (h : s.Kept history) (id : Nat)
    {told : Engine τ ε → Watched τ ε α} (horderly : ∀ e st, (told e).OrderlyAt st) :
    ((SiteAct.withEngine id fun e => (told e).act).run s).2.Kept
      (history ++ (s.momentsOf id told).filterMap Moment.opens?) := by
  cases hseat : s.seat? id with
  | none =>
      rw [withEngine_of_no_seat _ hseat, momentsOf, hseat]
      simpa using h
  | some seat =>
      obtain ⟨record, shared, p⟩ := seat
      rw [withEngine_of_seat _ hseat]
      obtain ⟨haddress, openings, hopened, hchanges⟩ :=
        horderly (engineOf shared record) (s.engineState shared p record)
      rw [filterMap_opens?_momentsOf hseat hopened]
      exact ⟨h.inStep.work hseat haddress hchanges,
        h.recorded.work h.inStep.tidy hseat haddress hchanges⟩

theorem Kept.undisturbed {s s' : Site τ ε} {history : List Opening} (h : s.Kept history)
    (hsame : s.Undisturbed s') : s'.Kept history :=
  ⟨h.inStep.undisturbed hsame, h.recorded.undisturbed hsame⟩

section Events

variable {s : Site τ ε} {history : List Opening}

/-- An environment that goes away when it is not in use has nothing to leave behind. -/
theorem Kept.releaseUnused (h : s.Kept history) (id : Nat) :
    ((SiteAct.releaseUnused id).run s).2.Kept history := by
  rcases releaseUnused_cases id s with hrun | ⟨hunused, w, hrun⟩
  · rwa [hrun]
  · rw [hrun]
    have hremoved := h.undisturbed (undisturbed_removeEnvironment h.inStep fun _ _ hrecord =>
      environment_ne_of_not_isInUse hunused hrecord)
    exact hremoved.undisturbed (undisturbed_withWorld _ w)

theorem Kept.startEnvironment (h : s.Kept history) (config : EngineConfig) :
    ((SiteAct.startEnvironment config).run s).2.Kept history := by
  rcases startEnvironment_cases config s with ⟨w, hrun⟩ | ⟨w, environment, registry, hslots, hrun⟩
  · rw [hrun]
    exact h.undisturbed (undisturbed_withWorld s w)
  · rw [hrun]
    have hstarted : Kept
        { s with
          next := s.next + 1
          environments := Table.put s.next ⟨environment, registry, true⟩ s.environments }
        history := h.undisturbed (undisturbed_startEnvironment h.inStep.tidy hslots)
    exact hstarted.undisturbed (undisturbed_withWorld _ w)

theorem Kept.giveUpEnvironment (h : s.Kept history) (id : Nat) :
    ((SiteAct.giveUpEnvironment id).run s).2.Kept history := by
  cases hfound : Table.get? id s.environments with
  | none =>
      rw [giveUpEnvironment_of_none hfound]
      exact h.releaseUnused id
  | some shared =>
      rw [giveUpEnvironment_run hfound]
      refine Kept.releaseUnused ?_ id
      exact h.undisturbed (undisturbed_shareEnvironment hfound rfl)

/-- An engine that is bound has its seat. -/
theorem InStep.seated (h : s.InStep) {id : Nat} {record : EngineRecord τ ε}
    (hrecord : Table.get? id s.engines = some record) (hbound : record.slot.generation? ≠ none) :
    ∃ shared p, s.seat? id = some (record, shared, p) := by
  obtain ⟨g, hg⟩ := Option.ne_none_iff_exists'.mp hbound
  obtain ⟨p, hp⟩ := h.tidy.program id record hrecord hbound
  have hlive := h.backed id record.environment p.address g ⟨record, p, hrecord, hp, rfl, rfl, hg⟩
  obtain ⟨shared, hshared, _⟩ := Option.bind_eq_some_iff.mp hlive
  exact ⟨shared, p, seat?_eq_some_iff.mpr ⟨hrecord, hshared, hp⟩⟩

/-- An engine that has been disposed of holds nothing. -/
theorem InStep.unbound_dispose (h : s.InStep) {id : Nat} {record : EngineRecord τ ε}
    (hrecord : Table.get? id ((SiteAct.withEngine id Engine.dispose).run s).2.engines = some record) :
    record.slot.generation? = none := by
  cases hseat : s.seat? id with
  | none =>
      rw [withEngine_of_no_seat _ hseat] at hrecord
      by_contra hbound
      obtain ⟨shared, p, hsome⟩ := h.seated hrecord hbound
      rw [hseat] at hsome
      cases hsome
  | some seat =>
      obtain ⟨found, shared, p⟩ := seat
      rw [withEngine_of_seat _ hseat] at hrecord
      simp only [withEngineState, Table.get?_put, ↓reduceIte] at hrecord
      obtain rfl := Option.some.inj hrecord
      exact Engine.generation?_dispose _ _

theorem Kept.removeEngine (h : s.Kept history) (id : Nat) :
    ((SiteAct.removeEngine id).run s).2.Kept
      (history ++ (s.momentsOf id Watched.dispose).filterMap Moment.opens?) := by
  cases hrecord : Table.get? id s.engines with
  | none =>
      have hnone : s.seat? id = none := by simp [seat?, hrecord]
      rw [removeEngine_of_none hrecord, momentsOf, hnone]
      simpa using h
  | some record =>
      have hdisposed := h.withEngine id Watched.orderlyAt_dispose
      simp only [Watched.act_dispose] at hdisposed
      rw [removeEngine_run hrecord]
      refine Kept.releaseUnused ?_ record.environment
      exact hdisposed.undisturbed (undisturbed_removeEngine fun _ hfound =>
        h.inStep.unbound_dispose hfound)

end Events

end Site

/-- Only engines use the registries, and the addresses of programs stay. -/
def SiteEvent.ByEngines : SiteEvent τ ε → Prop
  | .openContext .. => False
  | .closeContext .. => False
  | .editProgram _ edit => ∀ p, (edit p).address = p.address
  | _ => True

namespace Site

/-- An event without moments adds nothing to the history. -/
theorem Kept.of_moments_eq_nil {s : Site τ ε} {history : List Opening} {event : SiteEvent τ ε}
    (hquiet : event.moments s = []) (h : (event.next s).Kept history) :
    (event.next s).Kept (history ++ (event.moments s).filterMap Moment.opens?) := by
  rwa [hquiet, List.filterMap_nil, List.append_nil]

/-- Whatever engines and their owners do, all stays in step and on record. -/
theorem Kept.next {s : Site τ ε} {history : List Opening} (h : s.Kept history)
    {event : SiteEvent τ ε} (hevent : event.ByEngines) :
    (event.next s).Kept (history ++ (event.moments s).filterMap Moment.opens?) := by
  cases event with
  | order id order =>
      have hworked := h.withEngine id fun e st => order.orderlyAt e st
      simp only [Order.act_watched] at hworked
      exact hworked
  | drop id => exact h.removeEngine id
  | addEngine environment program compiler loader =>
      exact .of_moments_eq_nil rfl (h.undisturbed (undisturbed_addEngine h.inStep.tidy rfl))
  | addProgram p =>
      exact .of_moments_eq_nil rfl (h.undisturbed (undisturbed_addProgram h.inStep.tidy p))
  | editProgram id edit =>
      refine .of_moments_eq_nil rfl ?_
      rw [SiteEvent.next, SiteEvent.act]
      cases hp : Table.get? id s.programs with
      | none => rwa [editProgram_of_none hp]
      | some p =>
          rw [editProgram_run hp]
          exact h.undisturbed (undisturbed_editProgram hp (hevent p))
  | startEnvironment config => exact .of_moments_eq_nil rfl (h.startEnvironment config)
  | giveUpEnvironment id => exact .of_moments_eq_nil rfl (h.giveUpEnvironment id)
  | openContext environment address => exact hevent.elim
  | closeContext environment address generation => exact hevent.elim
  | elsewhere change =>
      exact .of_moments_eq_nil rfl (h.undisturbed (undisturbed_withWorld s (change s.world)))

theorem Kept.after {s : Site τ ε} {history : List Opening} (h : s.Kept history)
    {events : List (SiteEvent τ ε)} (hevents : ∀ event ∈ events, event.ByEngines) :
    (s.after events).Kept (history ++ s.openingsThrough events) := by
  induction events generalizing s history with
  | nil => simpa [openingsThrough, momentsThrough, Site.after] using h
  | cons event rest ih =>
      have hnext := h.next (hevents event List.mem_cons_self)
      have hrest := ih hnext fun other hother => hevents other (List.mem_cons_of_mem event hother)
      rw [openingsThrough, momentsThrough, List.filterMap_append, ← List.append_assoc]
      exact hrest

/-- In every course of events in which only engines use the registries, the live generations are
exactly the bound contexts: each is held by one engine, and each engine that is bound holds one.
The generations of an address that are opened in an environment grow, so none is opened twice, and
whatever is held was opened on the way. -/
theorem live_generations_are_bound_contexts (w : World τ) (events : List (SiteEvent τ ε))
    (hevents : ∀ event ∈ events, event.ByEngines) :
    (∀ environment address g,
        ((ofWorld w).after events).liveGeneration environment address = some g ↔
          ∃! id, ((ofWorld w).after events).Holds id environment address g) ∧
      (∀ id record g, Table.get? id ((ofWorld w).after events).engines = some record →
        record.slot.generation? = some g →
          ∃ address, ((ofWorld w).after events).Holds id record.environment address g) ∧
      ((ofWorld w).openingsThrough events).Pairwise Opening.Earlier ∧
      ((ofWorld w).openingsThrough events).Nodup ∧
      ∀ id environment address g, ((ofWorld w).after events).Holds id environment address g →
        ⟨environment, address, g⟩ ∈ (ofWorld w).openingsThrough events := by
  have hstart : (ofWorld w : Site τ ε).Kept [] := ⟨inStep_ofWorld w, recorded_ofWorld w⟩
  have hkept := hstart.after hevents
  rw [List.nil_append] at hkept
  refine ⟨?_, ?_, hkept.recorded.ordered, ?_, hkept.recorded.held⟩
  · intro environment address g
    constructor
    · intro hlive
      obtain ⟨id, hholds⟩ := hkept.inStep.held environment address g hlive
      exact ⟨id, hholds, fun other hother =>
        hkept.inStep.unique other id environment address g hother hholds⟩
    · rintro ⟨id, hholds, _⟩
      exact hkept.inStep.backed id environment address g hholds
  · intro id record g hrecord hg
    obtain ⟨p, hp⟩ := hkept.inStep.tidy.program id record hrecord (by simp [hg])
    exact ⟨p.address, record, p, hrecord, hp, rfl, rfl, hg⟩
  · refine hkept.recorded.ordered.imp ?_
    rintro first _ hearlier rfl
    exact Nat.lt_irrefl _ (hearlier rfl rfl)

/-- An engine that runs its program holds the first generation of its address. -/
theorem live_generation_of_the_lamp :
    (∀ event ∈ lampIsRun, event.ByEngines) ∧
      ((ofWorld World.withOneArtifact).after lampIsRun).liveGeneration 0 "lamp" = some 1 ∧
        ∃! id, ((ofWorld World.withOneArtifact).after lampIsRun).Holds id 0 "lamp" 1 := by
  have hevents : ∀ event ∈ lampIsRun, event.ByEngines := by
    simp [lampIsRun, SiteEvent.ByEngines]
  have hlive : ((ofWorld World.withOneArtifact).after lampIsRun).liveGeneration 0 "lamp" =
      some 1 := by
    decide +kernel
  have hheld := (live_generations_are_bound_contexts World.withOneArtifact lampIsRun hevents).1
  exact ⟨hevents, hlive, (hheld 0 "lamp" 1).mp hlive⟩

end Site

end Automation
