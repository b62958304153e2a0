import Automation.Proofs.Engine.Watched
import Automation.Site

/-
What goes on at a site.

Engines are told to work, their owners make and edit programs, environments come and go, anybody
may use a registry, and the world beyond changes as it likes.  A course of events is a list of
these in any order.  It leads from site to site, and passes through the moments of the engines
that work; each is kept with the number of the environment that the engine works in.
-/

namespace Automation

/-- What an engine is told to do. -/
inductive Order where
  | load
  | unload
  | compile
  | setup
  | run (options : String)
  | reset
deriving Repr, DecidableEq

namespace Order

variable {τ ε : Type}

/-- What an engine does when it is told to. -/
def act (e : Engine τ ε) : Order → EngineAct τ ε Unit
  | load => do let _ ← e.load
  | unload => e.unload
  | compile => do let _ ← e.compile
  | setup => do let _ ← e.setup
  | run options => do let _ ← e.run options
  | reset => do let _ ← e.reset

/-- The same under observation. -/
def watched (e : Engine τ ε) : Order → Watched τ ε Unit
  | load => do let _ ← Watched.quietly e.load
  | unload => Watched.unload e
  | compile => do let _ ← Watched.quietly e.compile
  | setup => do let _ ← Watched.setup e
  | run options => do let _ ← Watched.run e options
  | reset => do let _ ← Watched.reset e

theorem act_watched (e : Engine τ ε) (order : Order) : (order.watched e).act = order.act e := by
  cases order with
  | load => rfl
  | unload => exact Watched.act_unload e
  | compile => rfl
  | setup => simp [watched, act, Watched.act_setup]
  | run options => simp [watched, act, Watched.act_run]
  | reset => simp [watched, act]

end Order

/-- What can happen at a site. -/
inductive SiteEvent (τ ε : Type) where
  /-- An engine is told to work. -/
  | order (engine : Nat) (order : Order)
  /-- An engine is given up. -/
  | drop (engine : Nat)
  | addEngine (environment program : Nat) (compiler : Compiler τ) (loader : UnitLoader τ ε)
  | addProgram (p : ProgramBlock)
  | editProgram (program : Nat) (edit : ProgramBlock → ProgramBlock)
  | startEnvironment (config : EngineConfig)
  | giveUpEnvironment (environment : Nat)
  /-- Somebody opens a context without an engine. -/
  | openContext (environment : Nat) (address : String)
  /-- Somebody closes a context without an engine. -/
  | closeContext (environment : Nat) (address : String) (generation : Generation)
  /-- The world changes. -/
  | elsewhere (change : World τ → World τ)

namespace Site

variable {τ ε α : Type}

/-- An engine with the environment and the program it works on, when all of them are there. -/
def seat? (s : Site τ ε) (id : Nat) :
    Option (EngineRecord τ ε × SharedEnvironment × ProgramBlock) := do
  let record ← Table.get? id s.engines
  let shared ← Table.get? record.environment s.environments
  let p ← Table.get? record.program s.programs
  pure (record, shared, p)

/-- The parts of an engine that do not change. -/
def engineOf (shared : SharedEnvironment) (record : EngineRecord τ ε) : Engine τ ε :=
  ⟨shared.environment, record.compiler, record.loader⟩

theorem seat?_eq_some_iff {s : Site τ ε} {id : Nat} {record : EngineRecord τ ε}
    {shared : SharedEnvironment} {p : ProgramBlock} :
    s.seat? id = some (record, shared, p) ↔
      Table.get? id s.engines = some record ∧
        Table.get? record.environment s.environments = some shared ∧
          Table.get? record.program s.programs = some p := by
  simp only [seat?, Option.bind_eq_bind, Option.bind_eq_some_iff, Option.pure_def,
    Option.some.injEq, Prod.mk.injEq]
  constructor
  · rintro ⟨_, hrecord, _, hshared, _, hp, rfl, rfl, rfl⟩
    exact ⟨hrecord, hshared, hp⟩
  · rintro ⟨hrecord, hshared, hp⟩
    exact ⟨_, hrecord, _, hshared, _, hp, rfl, rfl, rfl⟩

/-- An engine works on its seat, and tells what comes of it. -/
theorem withEngine_run (act : Engine τ ε → EngineAct τ ε α) {s : Site τ ε} {id : Nat}
    {record : EngineRecord τ ε} {shared : SharedEnvironment} {p : ProgramBlock}
    (hseat : s.seat? id = some (record, shared, p)) :
    (SiteAct.withEngine id act).run s =
      let worked := (act (engineOf shared record)).run (s.engineState shared p record)
      (some worked.1, s.withEngineState id shared record worked.2) := by
  obtain ⟨hrecord, hshared, hp⟩ := seat?_eq_some_iff.mp hseat
  rw [SiteAct.withEngine, StateT.run_bind, StateT.run_get]
  simp only [pure_bind, hrecord, hshared, hp, Option.bind_eq_bind, Option.bind_some,
    Option.pure_def]
  rfl

theorem withEngine_of_seat (act : Engine τ ε → EngineAct τ ε α) {s : Site τ ε} {id : Nat}
    {record : EngineRecord τ ε} {shared : SharedEnvironment} {p : ProgramBlock}
    (hseat : s.seat? id = some (record, shared, p)) :
    ((SiteAct.withEngine id act).run s).2 =
      s.withEngineState id shared record
        ((act (engineOf shared record)).run (s.engineState shared p record)).2 :=
  congrArg Prod.snd (withEngine_run act hseat)

/-- Without a seat it does nothing. -/
theorem withEngine_of_no_seat (act : Engine τ ε → EngineAct τ ε α) {s : Site τ ε} {id : Nat}
    (hseat : s.seat? id = none) : ((SiteAct.withEngine id act).run s).2 = s := by
  rw [SiteAct.withEngine, StateT.run_bind, StateT.run_get]
  simp only [seat?] at hseat
  simp only [pure_bind, hseat]
  rfl

/-- The moments of an engine that works, with the environment it works in. -/
def momentsOf (s : Site τ ε) (id : Nat) (told : Engine τ ε → Watched τ ε α) :
    List (Nat × Moment τ ε) :=
  match s.seat? id with
  | none => []
  | some (record, shared, p) =>
      ((told (engineOf shared record)).moments (s.engineState shared p record)).map
        fun moment => (record.environment, moment)

end Site

namespace SiteEvent

variable {τ ε : Type}

/-- What an event does to a site. -/
def act : SiteEvent τ ε → SiteAct τ ε Unit
  | order engine o => do let _ ← SiteAct.withEngine engine o.act
  | drop engine => SiteAct.removeEngine engine
  | addEngine environment program compiler loader => do
      let _ ← SiteAct.addEngine environment program compiler loader
  | addProgram p => do let _ ← SiteAct.addProgram p
  | editProgram program edit => SiteAct.editProgram program edit
  | startEnvironment config => do let _ ← SiteAct.startEnvironment config
  | giveUpEnvironment environment => SiteAct.giveUpEnvironment environment
  | openContext environment address => do
      let _ ← SiteAct.withRegistry environment (·.openContext address)
  | closeContext environment address generation => do
      let _ ← SiteAct.withRegistry environment fun r => do
        pure ((), ← r.closeContext address generation)
  | elsewhere change => SiteAct.inWorld fun w => ((), change w)

/-- The site after an event. -/
def next (event : SiteEvent τ ε) (s : Site τ ε) : Site τ ε := (event.act.run s).2

/-- The moments of an event.  An engine that is given up is disposed of first. -/
def moments (event : SiteEvent τ ε) (s : Site τ ε) : List (Nat × Moment τ ε) :=
  match event with
  | order engine o => s.momentsOf engine fun e => o.watched e
  | drop engine => s.momentsOf engine Watched.dispose
  | _ => []

@[simp] theorem moments_order (engine : Nat) (o : Order) (s : Site τ ε) :
    (order engine o : SiteEvent τ ε).moments s = s.momentsOf engine fun e => o.watched e := rfl

@[simp] theorem moments_drop (engine : Nat) (s : Site τ ε) :
    (drop engine : SiteEvent τ ε).moments s = s.momentsOf engine Watched.dispose := rfl

end SiteEvent

namespace Site

variable {τ ε : Type}

/-- The site after a course of events. -/
def after (s : Site τ ε) : List (SiteEvent τ ε) → Site τ ε
  | [] => s
  | event :: rest => (event.next s).after rest

/-- The moments of a course of events, in order. -/
def momentsThrough (s : Site τ ε) : List (SiteEvent τ ε) → List (Nat × Moment τ ε)
  | [] => []
  | event :: rest => event.moments s ++ (event.next s).momentsThrough rest

theorem after_append (s : Site τ ε) (first second : List (SiteEvent τ ε)) :
    s.after (first ++ second) = (s.after first).after second := by
  induction first generalizing s with
  | nil => rfl
  | cons event rest ih => exact ih (event.next s)

theorem momentsThrough_append (s : Site τ ε) (first second : List (SiteEvent τ ε)) :
    s.momentsThrough (first ++ second) =
      s.momentsThrough first ++ (s.after first).momentsThrough second := by
  induction first generalizing s with
  | nil => rfl
  | cons event rest ih => simp [momentsThrough, after, ih]

/-- Every moment of a course belongs to one of its events. -/
theorem mem_momentsThrough_iff {s : Site τ ε} {events : List (SiteEvent τ ε)}
    {moment : Nat × Moment τ ε} :
    moment ∈ s.momentsThrough events ↔
      ∃ before event rest, events = before ++ event :: rest ∧
        moment ∈ event.moments (s.after before) := by
  constructor
  · intro h
    induction events generalizing s with
    | nil => simp [momentsThrough] at h
    | cons event rest ih =>
        simp only [momentsThrough, List.mem_append] at h
        rcases h with h | h
        · exact ⟨[], event, rest, rfl, h⟩
        · obtain ⟨before, found, others, rfl, hfound⟩ := ih h
          exact ⟨event :: before, found, others, rfl, hfound⟩
  · rintro ⟨before, event, rest, rfl, h⟩
    rw [momentsThrough_append]
    simp [momentsThrough, h]

end Site

/-- A loader of units that do whatever they are asked. -/
def UnitLoader.obliging : UnitLoader Unit Unit where
  capabilities :=
    { setHost := fun _ _ _ => pure (.ok (), ())
      setup := fun _ => pure (.ok ⟨true, .null⟩, ())
      run := fun _ _ => pure (.ok ⟨true, .null⟩, ())
      reset := fun _ => pure (.ok (), ())
      supportsReset := fun _ _ => true
      isUsable := fun _ _ => true
      release := fun _ => pure () }
  bind _ := pure (.ok ())

/-- A world with the artifact of one program. -/
def World.withOneArtifact : World Unit :=
  let files : FileTree :=
    ⟨[], [(["programs"], .directory), (["programs", "lamp.unit"], .file ⟨#[1]⟩ false)]⟩
  ⟨⟨files, ⟨1, []⟩, ⟨0, 0⟩, 0⟩, ()⟩

/-- An engine loads the program and runs it. -/
def lampIsRun : List (SiteEvent Unit Unit) :=
  [.startEnvironment .standard, .addProgram (.ofSource "lamp" ""),
    .addEngine 0 1 (fun _ => pure (.ok [])) .obliging, .order 2 .load, .order 2 (.run "")]

end Automation
