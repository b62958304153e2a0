import Automation.Loading.Isolated

/-
What engines and their units say to each other.

The acts that start a unit and talk to it are told here once more, each start of a process and each
request to one in their order.  Forgetting the traffic gives back the acts themselves, and a record of
all that reaches the processes grows by the traffic and by nothing else.
-/

namespace Automation

/-- A request to a unit, and what came of it. -/
structure Exchange where
  request : Request
  answer : Except ExchangeError Reply

/-- What passes between an engine and the processes of its units. -/
inductive Traffic where
  | started (process : Nat)
  | exchanged (process : Nat) (exchange : Exchange)

/-- What reaches a process: it is started, and lines are written to it. -/
inductive Dispatch where
  | start (process : Nat)
  | line (process : Nat) (text : String)
deriving Repr, DecidableEq

/-- What of the traffic reaches the process. -/
def Traffic.dispatch : Traffic → Dispatch
  | started process => .start process
  | exchanged process exchange => .line process exchange.request.line

/-- The request in it, if there is one. -/
def Traffic.request? : Traffic → Option Request
  | started _ => none
  | exchanged _ exchange => some exchange.request

/-- Whether a request has the unit do what it is there for.  The others prepare it for that. -/
def Request.invokes : Request → Bool
  | bind => false
  | setHost _ _ => false
  | _ => true

/-- The requests in some traffic that invoke units. -/
def invocations (traffic : List Traffic) : List Request :=
  (traffic.filterMap Traffic.request?).filter Request.invokes

@[simp] theorem invocations_nil : invocations [] = [] := rfl

theorem invocations_append (first second : List Traffic) :
    invocations (first ++ second) = invocations first ++ invocations second := by
  rw [invocations, List.filterMap_append, List.filter_append]
  rfl

/-- An act in the world, and the traffic in it. -/
structure Overheard (τ α : Type) where
  act : Act τ α
  traffic : World τ → List Traffic

namespace Overheard

variable {τ α β : Type}

instance : Monad (Overheard τ) where
  pure value := ⟨pure value, fun _ => []⟩
  bind heard f :=
    { act := heard.act >>= fun value => (f value).act
      traffic := fun w =>
        heard.traffic w ++ (f (heard.act.run w).1).traffic (heard.act.run w).2 }

@[simp] theorem act_pure (value : α) : (pure value : Overheard τ α).act = pure value := rfl

@[simp] theorem act_bind (heard : Overheard τ α) (f : α → Overheard τ β) :
    (heard >>= f).act = heard.act >>= fun value => (f value).act := rfl

@[simp] theorem traffic_pure (value : α) (w : World τ) :
    (pure value : Overheard τ α).traffic w = [] := rfl

@[simp] theorem traffic_bind (heard : Overheard τ α) (f : α → Overheard τ β) (w : World τ) :
    (heard >>= f).traffic w =
      heard.traffic w ++ (f (heard.act.run w).1).traffic (heard.act.run w).2 := rfl

/-- An act without traffic. -/
def silently (act : Act τ α) : Overheard τ α := ⟨act, fun _ => []⟩

variable (launcher : Launcher τ)

/-- A process that is started is the beginning of all traffic with it. -/
def starting (launch : Launch) : Overheard τ (Except OsError Nat) where
  act := launcher.start launch
  traffic w := ((launcher.start launch).run w).1.toOption.toList.map .started

/-- To send a request and read its reply. -/
def exchanging (process : Nat) (request : Request) : Overheard τ (Except ExchangeError Reply) where
  act := IsolatedEntry.exchange launcher process request
  traffic w :=
    [.exchanged process
      ⟨request, ((IsolatedEntry.exchange launcher process request).run w).1⟩]

@[simp] theorem act_silently (act : Act τ α) : (silently act).act = act := rfl

@[simp] theorem traffic_silently (act : Act τ α) (w : World τ) : (silently act).traffic w = [] := rfl

@[simp] theorem act_starting (launch : Launch) :
    (starting launcher launch).act = launcher.start launch := rfl

@[simp] theorem act_exchanging (process : Nat) (request : Request) :
    (exchanging launcher process request).act = IsolatedEntry.exchange launcher process request :=
  rfl

theorem traffic_starting (launch : Launch) (w : World τ) :
    (starting launcher launch).traffic w =
      ((launcher.start launch).run w).1.toOption.toList.map .started := rfl

theorem traffic_exchanging (process : Nat) (request : Request) (w : World τ) :
    (exchanging launcher process request).traffic w =
      [.exchanged process
        ⟨request, ((IsolatedEntry.exchange launcher process request).run w).1⟩] := rfl

def call (entry : IsolatedEntry) (request : Request) :
    Overheard τ (Except ExchangeError Reply × IsolatedEntry) := do
  if entry.broken then pure (.error .outOfSync, entry)
  else
    match ← exchanging launcher entry.process request with
    | .error e => pure (.error e, { entry with broken := true })
    | .ok reply => pure (.ok reply, entry)

def command (entry : IsolatedEntry) (request : Request) :
    Overheard τ (Except ScriptFault Unit × IsolatedEntry) := do
  let answered ← call launcher entry request
  pure (IsolatedEntry.successOf answered.1, answered.2)

def introduce (request : BindRequest) (process : Nat) (snapshot : Path) :
    Overheard τ (Except BindingError IsolatedEntry) := do
  let answered ← call launcher ⟨process, snapshot, false, false⟩ .bind
  match IsolatedEntry.accept request answered.2 answered.1 with
  | .ok entry => pure (.ok entry)
  | .error e =>
      silently (answered.2.release launcher)
      pure (.error e)

variable (shadowDir : Path) (extension : String) (request : BindRequest)

def bindUnit : Overheard τ (Except BindingError IsolatedEntry) := do
  match ← silently (Act.files (Snapshot.write shadowDir extension request)) with
  | .error e => pure (.error (.snapshot e))
  | .ok snapshot =>
      match ← starting launcher (Snapshot.launch snapshot request) with
      | .error e =>
          silently (Act.files (Snapshot.remove snapshot))
          pure (.error (.spawn e))
      | .ok process => introduce launcher request process snapshot

def bindEntry : Overheard τ (Except BindingError IsolatedEntry) := do
  match ← bindUnit launcher shadowDir extension request with
  | .error e => pure (.error e)
  | .ok entry =>
      let told ← command launcher entry (.setHost request.host request.address)
      match told.1 with
      | .ok _ => pure (.ok told.2)
      | .error fault =>
          silently (told.2.release launcher)
          pure (.error (.hostRejected fault))

/-- The act calls a unit, and only reads its answer in some way. -/
def Calls (launcher : Launcher τ) (entry : IsolatedEntry) (request : Request)
    (act : Act τ (α × IsolatedEntry)) : Prop :=
  ∀ w, (act.run w).1.2 = ((call launcher entry request).act.run w).1.2 ∧
    (act.run w).2 = ((call launcher entry request).act.run w).2

@[simp] theorem act_call (entry : IsolatedEntry) (r : Request) :
    (call launcher entry r).act = entry.call launcher r := by
  rw [call, IsolatedEntry.call]
  split
  · rfl
  · simp only [act_bind, act_exchanging]
    congr 1
    funext answer
    cases answer <;> rfl

@[simp] theorem act_command (entry : IsolatedEntry) (r : Request) :
    (command launcher entry r).act = entry.command launcher r := by
  simp only [command, IsolatedEntry.command, act_bind, act_call]
  rfl

theorem calls_command (entry : IsolatedEntry) (r : Request) :
    Calls launcher entry r (entry.command launcher r) := by
  intro w
  rw [act_call]
  exact ⟨rfl, rfl⟩

theorem calls_invoke (entry : IsolatedEntry) (r : Request) :
    Calls launcher entry r (entry.invoke launcher r) := by
  intro w
  rw [act_call]
  exact ⟨rfl, rfl⟩

theorem act_introduce (process : Nat) (snapshot : Path) :
    (introduce launcher request process snapshot).act =
      IsolatedEntry.introduce launcher request process snapshot := by
  simp only [introduce, IsolatedEntry.introduce, act_bind, act_call]
  congr 1
  funext answered
  cases IsolatedEntry.accept request answered.2 answered.1 <;> rfl

theorem act_bindUnit : (bindUnit launcher shadowDir extension request).act =
    (UnitLoader.isolated launcher shadowDir extension).bind request := by
  simp only [bindUnit, UnitLoader.isolated, act_bind, act_silently]
  congr 1
  funext written
  cases written with
  | error e => rfl
  | ok snapshot =>
      simp only [act_bind, act_starting]
      congr 1
      funext started
      cases started with
      | error e => rfl
      | ok process => exact act_introduce launcher request process snapshot

theorem act_bindEntry : (bindEntry launcher shadowDir extension request).act =
    (UnitLoader.isolated launcher shadowDir extension).bindEntry request := by
  simp only [bindEntry, UnitLoader.bindEntry, act_bind, act_bindUnit]
  congr 1
  funext bound
  cases bound with
  | error e => rfl
  | ok entry =>
      simp only [act_bind, act_command]
      congr 1
      funext told
      obtain ⟨_ | _, entry⟩ := told <;> rfl

end Overheard

/-- A record of what reaches the processes of a launcher, in the world beyond the host: every process
that is started and every line that is sent is added to it, and nothing else. -/
structure Launcher.Records {τ : Type} (launcher : Launcher τ) (record : τ → List Dispatch) :
    Prop where
  start : ∀ launch w, record ((launcher.start launch).run w).2.outside =
    record w.outside ++ ((launcher.start launch).run w).1.toOption.toList.map .start
  send : ∀ process line w, record ((launcher.send process line).run w).2.outside =
    record w.outside ++ [.line process line]
  receiveLine : ∀ process w,
    record ((launcher.receiveLine process).run w).2.outside = record w.outside
  stop : ∀ process w, record ((launcher.stop process).run w).2.outside = record w.outside

namespace Act

variable {τ α β : Type} (record : τ → List Dispatch)

/-- The act adds nothing to a record. -/
def IsSilent (act : Act τ α) : Prop :=
  ∀ w, record (act.run w).2.outside = record w.outside

variable {record}

theorem isSilent_pure (value : α) : IsSilent record (pure value : Act τ α) := fun _ => rfl

theorem IsSilent.bind {act : Act τ α} {f : α → Act τ β} (hact : IsSilent record act)
    (hf : ∀ value, IsSilent record (f value)) : IsSilent record (act >>= f) :=
  fun w => (hf _ _).trans (hact w)

theorem isSilent_files (action : FileAction α) : IsSilent record (files action : Act τ α) :=
  fun _ => rfl

theorem isSilent_freshTask (t : Nat → FileTask (α × Nat)) :
    IsSilent record (freshTask t : Act τ (Except Failure α)) := by
  intro w
  have hsilent : record ((files (t w.host.fresh).run).run w).2.outside = record w.outside :=
    isSilent_files _ w
  rw [StateT.run, freshTask]
  generalize hran : StateT.run (files _) w = ran
  rw [hran] at hsilent
  obtain ⟨_ | _, after⟩ := ran <;> exact hsilent

end Act

namespace Overheard

variable {τ α β : Type} {launcher : Launcher τ} {record : τ → List Dispatch}

/-- A record grows by the traffic of the act. -/
def Recorded (record : τ → List Dispatch) (heard : Overheard τ α) : Prop :=
  ∀ w, record (heard.act.run w).2.outside =
    record w.outside ++ (heard.traffic w).map Traffic.dispatch

theorem recorded_pure (value : α) : Recorded record (pure value : Overheard τ α) :=
  fun w => (List.append_nil (record w.outside)).symm

theorem Recorded.bind {heard : Overheard τ α} {f : α → Overheard τ β} (h : Recorded record heard)
    (hf : ∀ value, Recorded record (f value)) : Recorded record (heard >>= f) := by
  intro w
  rw [traffic_bind, List.map_append, ← List.append_assoc, ← h w]
  exact hf (heard.act.run w).1 (heard.act.run w).2

theorem recorded_silently {act : Act τ α} (h : act.IsSilent record) :
    Recorded record (silently act) :=
  fun w => (h w).trans (List.append_nil (record w.outside)).symm

theorem recorded_starting (h : launcher.Records record) (launch : Launch) :
    Recorded record (starting launcher launch) := by
  intro w
  rw [act_starting, h.start, traffic_starting, List.map_map]
  rfl

theorem isSilent_readReply (h : launcher.Records record) (process lines : Nat) :
    (IsolatedEntry.readReply launcher process lines).IsSilent record := by
  induction lines with
  | zero => exact Act.isSilent_pure _
  | succ lines ih =>
      refine Act.IsSilent.bind (h.receiveLine process) fun received => ?_
      cases received with
      | error e => exact Act.isSilent_pure _
      | ok line =>
          dsimp only
          split
          · exact Act.isSilent_pure _
          · split
            · exact ih
            · exact Act.isSilent_pure _
            · exact Act.isSilent_pure _

theorem recorded_exchanging (h : launcher.Records record) (process : Nat) (request : Request) :
    Recorded record (exchanging launcher process request) := by
  intro w
  have hsent := h.send process request.line w
  rw [act_exchanging, IsolatedEntry.exchange, StateT.run_bind]
  cases hran : (launcher.send process request.line).run w with
  | mk result after =>
      rw [hran] at hsent
      cases result with
      | error e => exact hsent
      | ok done => exact (isSilent_readReply h process _ after).trans hsent

theorem recorded_call (h : launcher.Records record) (entry : IsolatedEntry) (request : Request) :
    Recorded record (call launcher entry request) := by
  rw [call]
  split
  · exact recorded_pure _
  · refine (recorded_exchanging h entry.process request).bind fun answer => ?_
    cases answer <;> exact recorded_pure _

theorem isSilent_release (h : launcher.Records record) (entry : IsolatedEntry) :
    (entry.release launcher).IsSilent record :=
  Act.IsSilent.bind (h.stop entry.process) fun _ => Act.isSilent_files _

theorem recorded_introduce (h : launcher.Records record) (request : BindRequest) (process : Nat)
    (snapshot : Path) : Recorded record (introduce launcher request process snapshot) := by
  refine (recorded_call h _ .bind).bind fun answered => ?_
  cases IsolatedEntry.accept request answered.2 answered.1 with
  | ok entry => exact recorded_pure _
  | error e =>
      exact (recorded_silently (isSilent_release h answered.2)).bind fun _ => recorded_pure _

theorem recorded_bindUnit (h : launcher.Records record) (shadowDir : Path) (extension : String)
    (request : BindRequest) :
    Recorded record (bindUnit launcher shadowDir extension request) := by
  refine (recorded_silently (Act.isSilent_files _)).bind fun written => ?_
  cases written with
  | error e => exact recorded_pure _
  | ok snapshot =>
      refine (recorded_starting h _).bind fun started => ?_
      cases started with
      | error e =>
          exact (recorded_silently (Act.isSilent_files _)).bind fun _ => recorded_pure _
      | ok process => exact recorded_introduce h request process snapshot

theorem recorded_bindEntry (h : launcher.Records record) (shadowDir : Path) (extension : String)
    (request : BindRequest) :
    Recorded record (bindEntry launcher shadowDir extension request) := by
  refine (recorded_bindUnit h shadowDir extension request).bind fun bound => ?_
  cases bound with
  | error e => exact recorded_pure _
  | ok entry =>
      refine Recorded.bind ?_ fun told => ?_
      · exact (recorded_call h entry _).bind fun _ => recorded_pure _
      · cases told.1 with
        | ok done => exact recorded_pure _
        | error fault =>
            exact (recorded_silently (isSilent_release h told.2)).bind fun _ => recorded_pure _

/-- The act invokes no unit. -/
def Prepares (heard : Overheard τ α) : Prop :=
  ∀ w, invocations (heard.traffic w) = []

theorem prepares_silently (act : Act τ α) : Prepares (silently act) := fun _ => rfl

theorem prepares_pure (value : α) : Prepares (pure value : Overheard τ α) := fun _ => rfl

theorem Prepares.bind {heard : Overheard τ α} {f : α → Overheard τ β} (h : Prepares heard)
    (hf : ∀ value, Prepares (f value)) : Prepares (heard >>= f) := by
  intro w
  rw [traffic_bind, invocations_append, h w, hf _ _]
  rfl

theorem prepares_starting (launch : Launch) : Prepares (starting launcher launch) := by
  intro w
  rw [traffic_starting]
  cases ((launcher.start launch).run w).1 <;> rfl

/-- A call is one request, unless the entry is broken. -/
theorem invocations_call (entry : IsolatedEntry) (request : Request) (w : World τ) :
    (invocations ((call launcher entry request).traffic w)).Sublist
      ([request].filter Request.invokes) := by
  rw [call]
  split
  · exact List.nil_sublist _
  · rw [traffic_bind, traffic_exchanging]
    generalize (exchanging launcher entry.process request).act.run w = exchanged
    obtain ⟨_ | reply, after⟩ := exchanged <;> exact List.Sublist.refl _

theorem prepares_call {entry : IsolatedEntry} {request : Request}
    (h : request.invokes = false) : Prepares (call launcher entry request) := by
  intro w
  have hcall : (invocations ((call launcher entry request).traffic w)).Sublist _ :=
    invocations_call entry request w
  rw [List.filter_cons_of_neg (by simp [h])] at hcall
  exact List.sublist_nil.mp hcall

theorem prepares_bindUnit (shadowDir : Path) (extension : String) (request : BindRequest) :
    Prepares (bindUnit launcher shadowDir extension request) := by
  refine (prepares_silently _).bind fun written => ?_
  cases written with
  | error e => exact prepares_pure _
  | ok snapshot =>
      refine (prepares_starting _).bind fun started => ?_
      cases started with
      | error e => exact (prepares_silently _).bind fun _ => prepares_pure _
      | ok process =>
          refine (prepares_call rfl).bind fun answered => ?_
          cases IsolatedEntry.accept request answered.2 answered.1 with
          | ok entry => exact prepares_pure _
          | error e => exact (prepares_silently _).bind fun _ => prepares_pure _

/-- To bind a unit is only to prepare it. -/
theorem prepares_bindEntry (shadowDir : Path) (extension : String) (request : BindRequest) :
    Prepares (bindEntry launcher shadowDir extension request) := by
  refine (prepares_bindUnit shadowDir extension request).bind fun bound => ?_
  cases bound with
  | error e => exact prepares_pure _
  | ok entry =>
      refine Prepares.bind ?_ fun told => ?_
      · exact (prepares_call rfl).bind fun _ => prepares_pure _
      · cases told.1 with
        | ok done => exact prepares_pure _
        | error fault => exact (prepares_silently _).bind fun _ => prepares_pure _

end Overheard

end Automation
