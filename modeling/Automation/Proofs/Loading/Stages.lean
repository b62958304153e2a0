import Automation.Proofs.Loading.Traffic
import Mathlib.Data.List.Infix
import Mathlib.Logic.Function.Basic

/-
The order in which a unit is spoken to.

A process that has been started is asked to bind; when it suits, it is told its host; when it has
taken that, it serves.  Whatever else happens closes it, and a closed process is not spoken to any
more.  What is said to the processes follows this order when every request is one that its process
may be asked at the stage it has come to.
-/

namespace Automation

/-- How far a unit has come since its process was started. -/
inductive Stage where
  | started
  /-- It has said that it is the unit asked for. -/
  | bound (resets : Bool)
  /-- It has taken its host. -/
  | serving (resets : Bool)
  /-- It is not spoken to any more. -/
  | closed
deriving Repr, DecidableEq

namespace Stage

/-- What a unit may be asked. -/
def permits : Stage → Request → Bool
  | started, .bind => true
  | bound _, .setHost _ _ => true
  | serving _, .setup => true
  | serving _, .run _ => true
  | serving resets, .reset => resets
  | _, _ => false

/-- A unit suits when the name of its entry ends with the type asked for, and it can do what every
unit must be able to do. -/
def Suits (entryType found : String) (capabilities : List String) : Prop :=
  entryType.toList <:+ found.toList ∧
    "set_host" ∈ capabilities ∧ "setup" ∈ capabilities ∧ "run" ∈ capabilities

instance (entryType found : String) (capabilities : List String) :
    Decidable (Suits entryType found capabilities) :=
  inferInstanceAs (Decidable (_ ∧ _ ∧ _ ∧ _))

/-- Where an answer leads.  A failed exchange always closes. -/
def next (entryType : String) : Stage → Except ExchangeError Reply → Stage
  | started, .ok (.bound found capabilities) =>
      if Suits entryType found capabilities then bound (decide ("reset" ∈ capabilities))
      else closed
  | bound resets, .ok .done => serving resets
  | serving resets, .ok _ => serving resets
  | _, _ => closed

end Stage

/-- The stages of the processes that have been started. -/
abbrev Stages := Nat → Option Stage

namespace Stages

/-- Before anything has been started. -/
def none : Stages := fun _ => Option.none

variable (entryType : String)

/-- What becomes of the stages. -/
def next (stages : Stages) : Traffic → Stages
  | .started process => Function.update stages process (some .started)
  | .exchanged process exchange =>
      Function.update stages process
        ((stages process).map fun stage => stage.next entryType exchange.answer)

def after (stages : Stages) (traffic : List Traffic) : Stages :=
  traffic.foldl (next entryType) stages

/-- Anything may be started, and a process may be asked what its stage permits. -/
def Permits (stages : Stages) : Traffic → Prop
  | .started _ => True
  | .exchanged process exchange =>
      ∃ stage, stages process = some stage ∧ stage.permits exchange.request = true

/-- All of the traffic is permitted when it takes place. -/
def Follow (stages : Stages) : List Traffic → Prop
  | [] => True
  | one :: rest => stages.Permits one ∧ (stages.next entryType one).Follow rest

variable {entryType} {stages : Stages}

@[simp] theorem after_nil : stages.after entryType [] = stages := rfl

@[simp] theorem after_singleton (one : Traffic) :
    stages.after entryType [one] = stages.next entryType one := rfl

@[simp] theorem follow_nil : stages.Follow entryType [] := trivial

theorem after_append (first second : List Traffic) :
    stages.after entryType (first ++ second) =
      (stages.after entryType first).after entryType second :=
  List.foldl_append

theorem follow_append {first second : List Traffic} :
    stages.Follow entryType (first ++ second) ↔
      stages.Follow entryType first ∧ (stages.after entryType first).Follow entryType second := by
  induction first generalizing stages with
  | nil => simp
  | cons one rest ih =>
      rw [List.cons_append, Follow, Follow, ih, and_assoc]
      rfl

/-- Whatever stands in the traffic is permitted after what stands before it. -/
theorem Follow.permits {before rest : List Traffic} {one : Traffic}
    (h : stages.Follow entryType (before ++ one :: rest)) :
    (stages.after entryType before).Permits one :=
  (follow_append.mp h).2.1

end Stages

/-- As long as its exchanges have not failed, the unit of an entry is at a stage. -/
def IsolatedEntry.At (stage : Stage) (entry : IsolatedEntry) (stages : Stages) : Prop :=
  entry.broken = false → stages entry.process = some stage

/-- A unit that is told its host answers with success only when it is done. -/
theorem IsolatedEntry.eq_of_successOf_ok {answer : Except ExchangeError Reply}
    (h : successOf answer = .ok ()) : answer = .ok .done := by
  rw [successOf.eq_def] at h
  split at h
  · cases h
  · rfl
  · cases h
  · cases h

/-- An entry is accepted when its unit suits, and then it is known whether it can be reset. -/
theorem IsolatedEntry.of_accept_ok {request : BindRequest} {entry made : IsolatedEntry}
    {answer : Except ExchangeError Reply} (h : accept request entry answer = .ok made) :
    ∃ found capabilities, answer = .ok (.bound found capabilities) ∧
      Stage.Suits request.entryType found capabilities ∧
      made = { entry with supportsReset := decide ("reset" ∈ capabilities) } := by
  rw [accept.eq_def] at h
  split at h
  · cases h
  · next found capabilities =>
    split at h
    · cases h
    · next hsuffix =>
      split at h
      · cases h
      · next hrequired =>
        have hall := List.find?_eq_none.mp hrequired
        refine ⟨found, capabilities, rfl, ⟨?_, ?_, ?_, ?_⟩, ?_⟩
        · simpa using hsuffix
        · simpa [requiredCapabilities] using hall "set_host"
        · simpa [requiredCapabilities] using hall "setup"
        · simpa [requiredCapabilities] using hall "run"
        · rw [← Except.ok.inj h]
          simp [resetCapability]
  · cases h

namespace Overheard

variable {τ α β : Type} {entryType : String} {P P' : Stages → Prop} {Q : α → Stages → Prop}
  {R : β → Stages → Prop}

/-- From stages of one kind, the traffic of an act follows the order and leads to stages of another
kind. -/
structure Obeys (entryType : String) (P : Stages → Prop) (heard : Overheard τ α)
    (Q : α → Stages → Prop) : Prop where
  run : ∀ w stages, P stages → stages.Follow entryType (heard.traffic w) ∧
    Q (heard.act.run w).1 (stages.after entryType (heard.traffic w))

theorem obeys_pure {value : α} (h : ∀ stages, P stages → Q value stages) :
    Obeys entryType P (pure value : Overheard τ α) Q :=
  ⟨fun _ stages hstages => ⟨trivial, h stages hstages⟩⟩

theorem Obeys.bind {heard : Overheard τ α} {f : α → Overheard τ β} (h : Obeys entryType P heard Q)
    (hf : ∀ value, Obeys entryType (Q value) (f value) R) : Obeys entryType P (heard >>= f) R := by
  constructor
  intro w stages hstages
  obtain ⟨hfirst, hmiddle⟩ := h.run w stages hstages
  obtain ⟨hsecond, hend⟩ := (hf _).run (heard.act.run w).2 _ hmiddle
  rw [traffic_bind, Stages.after_append]
  exact ⟨Stages.follow_append.mpr ⟨hfirst, hsecond⟩, hend⟩

theorem obeys_silently {act : Act τ α} (h : ∀ value stages, P stages → Q value stages) :
    Obeys entryType P (silently act) Q :=
  ⟨fun _ stages hstages => ⟨trivial, h _ stages hstages⟩⟩

variable {launcher : Launcher τ}

theorem obeys_starting (launch : Launch) :
    Obeys entryType P (starting launcher launch) fun result stages =>
      ∀ process, result = .ok process → stages process = some .started := by
  constructor
  intro w stages _
  rw [act_starting, traffic_starting]
  cases ((launcher.start launch).run w).1 with
  | error e => exact ⟨trivial, fun process h => by cases h⟩
  | ok process =>
      refine ⟨⟨trivial, trivial⟩, fun started h => ?_⟩
      cases h
      exact Function.update_self process _ stages

theorem obeys_exchanging {process : Nat} {request : Request} {stage : Stage}
    (h : stage.permits request = true) :
    Obeys entryType (fun stages => stages process = some stage)
      (exchanging launcher process request) fun answer stages =>
        stages process = some (stage.next entryType answer) := by
  constructor
  intro w stages hstage
  refine ⟨⟨⟨stage, hstage, h⟩, trivial⟩, ?_⟩
  rw [traffic_exchanging, Stages.after_singleton, Stages.next, Function.update_self, hstage]
  rfl

/-- An entry that is asked what its stage permits is at the next stage, unless an exchange has
failed. -/
theorem obeys_call {entry : IsolatedEntry} {request : Request} {stage : Stage}
    (h : stage.permits request = true) :
    Obeys entryType (entry.At stage) (call launcher entry request) fun answered stages =>
      answered.2.At (stage.next entryType answered.1) stages ∧
        answered.2.supportsReset = entry.supportsReset ∧
        (answered.2.broken = false → ∃ reply, answered.1 = .ok reply) := by
  rw [call]
  split
  · next hbroken =>
    refine obeys_pure fun stages _ => ⟨fun hsound => ?_, rfl, fun hsound => ?_⟩
    · cases hbroken.symm.trans hsound
    · cases hbroken.symm.trans hsound
  · next hsound =>
    have hat : ∀ stages, entry.At stage stages → stages entry.process = some stage :=
      fun stages hstages => hstages (Bool.not_eq_true _ ▸ hsound)
    refine Obeys.bind (Q := fun answer stages =>
      stages entry.process = some (stage.next entryType answer))
      ⟨fun w stages hstages => (obeys_exchanging h).run w stages (hat stages hstages)⟩
      fun answer => ?_
    cases answer with
    | error e =>
        exact obeys_pure fun stages _ =>
          ⟨fun hsound => (by cases hsound), rfl, fun hsound => (by cases hsound)⟩
    | ok reply =>
        exact obeys_pure fun stages hstages => ⟨fun _ => hstages, rfl, fun _ => ⟨reply, rfl⟩⟩

/-- A unit that serves goes on to serve. -/
theorem obeys_call_serving {entry : IsolatedEntry} {request : Request}
    (h : (Stage.serving entry.supportsReset).permits request = true) :
    Obeys entryType (entry.At (.serving entry.supportsReset)) (call launcher entry request)
      fun answered stages => answered.2.At (.serving answered.2.supportsReset) stages := by
  constructor
  intro w stages hstages
  obtain ⟨hfollow, hat, hresets, hok⟩ := (obeys_call h).run w stages hstages
  refine ⟨hfollow, fun hsound => ?_⟩
  obtain ⟨reply, hreply⟩ := hok hsound
  rw [hat hsound, hreply, hresets]
  rfl

theorem obeys_introduce (request : BindRequest) (process : Nat) (snapshot : Path) :
    Obeys request.entryType (fun stages => stages process = some .started)
      (introduce launcher request process snapshot) fun made stages =>
        ∀ entry, made = .ok entry → entry.At (.bound entry.supportsReset) stages := by
  refine Obeys.bind (Q := fun answered stages =>
    answered.2.At (Stage.next request.entryType .started answered.1) stages)
    ⟨fun w stages hstages => ?_⟩ fun answered => ?_
  · have hasked : Obeys request.entryType (IsolatedEntry.At .started ⟨process, snapshot, false, false⟩)
        (call launcher ⟨process, snapshot, false, false⟩ .bind) _ := obeys_call rfl
    obtain ⟨hfollow, hat, -⟩ := hasked.run w stages fun _ => hstages
    exact ⟨hfollow, hat⟩
  · cases hmade : IsolatedEntry.accept request answered.2 answered.1 with
    | error e =>
        exact (obeys_silently fun _ _ _ => trivial).bind fun _ =>
          obeys_pure fun stages _ entry hentry => by cases hentry
    | ok made =>
        obtain ⟨found, capabilities, hanswer, hsuits, rfl⟩ := IsolatedEntry.of_accept_ok hmade
        refine obeys_pure fun stages hat entry hentry hsound => ?_
        cases hentry
        rw [hanswer, Stage.next, if_pos hsuits] at hat
        exact hat hsound

theorem obeys_bindUnit (shadowDir : Path) (extension : String) (request : BindRequest) :
    Obeys request.entryType P (bindUnit launcher shadowDir extension request) fun made stages =>
      ∀ entry, made = .ok entry → entry.At (.bound entry.supportsReset) stages := by
  refine (obeys_silently fun _ _ _ => trivial).bind fun written => ?_
  cases written with
  | error e => exact obeys_pure fun stages _ entry hentry => by cases hentry
  | ok snapshot =>
      refine (obeys_starting _).bind fun started => ?_
      cases started with
      | error e =>
          exact (obeys_silently fun _ _ _ => trivial).bind fun _ =>
            obeys_pure fun stages _ entry hentry => by cases hentry
      | ok process =>
          exact ⟨fun w stages hstages =>
            (obeys_introduce request process snapshot).run w stages (hstages process rfl)⟩

theorem obeys_setHost (entry : IsolatedEntry) (host address : String) :
    Obeys entryType (entry.At (.bound entry.supportsReset))
      (command launcher entry (.setHost host address)) fun told stages =>
        told.1 = .ok () → told.2.At (.serving told.2.supportsReset) stages := by
  refine (obeys_call rfl).bind fun answered => obeys_pure ?_
  intro stages hstages hdone
  obtain ⟨hat, hresets, -⟩ := hstages
  rw [IsolatedEntry.eq_of_successOf_ok hdone] at hat
  rw [hresets]
  exact hat

/-- Whatever a loader binds serves. -/
theorem obeys_bindEntry (shadowDir : Path) (extension : String) (request : BindRequest) :
    Obeys request.entryType P (bindEntry launcher shadowDir extension request) fun made stages =>
      ∀ entry, made = .ok entry → entry.At (.serving entry.supportsReset) stages := by
  refine (obeys_bindUnit shadowDir extension request).bind fun bound => ?_
  cases bound with
  | error e => exact obeys_pure fun stages _ entry hentry => by cases hentry
  | ok entry =>
      refine Obeys.bind (Q := fun told stages =>
        told.1 = .ok () → told.2.At (.serving told.2.supportsReset) stages)
        ⟨fun w stages hstages => (obeys_setHost entry _ _).run w stages (hstages entry rfl)⟩
        fun told => ?_
      obtain ⟨_ | _, told⟩ := told
      · exact (obeys_silently fun _ _ _ => trivial).bind fun _ =>
          obeys_pure fun stages _ entry hentry => by cases hentry
      · refine obeys_pure fun stages hstages entry hentry => ?_
        cases hentry
        exact hstages rfl

end Overheard

end Automation
