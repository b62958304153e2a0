import Automation.Proofs.Loading.Conversation
import Automation.Proofs.Loading.Stages

/-
How long a unit can be relied on.

An entry is usable as long as every request it has made was answered.  A reply that an operation has no
use for is an answer all the same: its caller is told of a fault, but the entry is kept, and what the
unit writes next may answer another request.  As long as no such reply comes, an entry is usable just
while every request has been answered in kind.
-/

namespace Automation

/-- The replies that the operation behind a request has a use for. -/
def Request.accepts : Request → Reply → Bool
  | bind, .bound _ _ => true
  | setHost _ _, .done => true
  | setHost _ _, .fault _ => true
  | setup, .ok _ => true
  | setup, .fault _ => true
  | run _, .ok _ => true
  | run _, .fault _ => true
  | reset, .done => true
  | reset, .fault _ => true
  | _, _ => false

namespace Exchange

/-- The request was answered by a reply that its operation has a use for. -/
def fits (exchange : Exchange) : Bool :=
  match exchange.answer with
  | .ok reply => exchange.request.accepts reply
  | .error _ => false

theorem answered_of_fits {exchange : Exchange} (h : exchange.fits = true) :
    exchange.answered = true := by
  rw [fits] at h
  rw [answered]
  cases hanswer : exchange.answer with
  | ok reply => rfl
  | error e =>
      rw [hanswer] at h
      cases h

end Exchange

namespace IsolatedEntry

variable {τ α : Type} {launcher : Launcher τ} {entry : IsolatedEntry} {request : Request}

/-- What a caller is told by an entry that cannot be relied on any more. -/
def outOfStep : ScriptFault := .ofMessage ExchangeError.outOfSync.message

/-- An act asks the unit of an entry by one request, and tells what came of it: it does what the request
does, it is refused where that is, and a fault of the unit is told as it is. -/
structure Asks (launcher : Launcher τ) (entry : IsolatedEntry) (request : Request)
    (act : Act τ (Except ScriptFault α × IsolatedEntry)) : Prop where
  calls : Overheard.Calls launcher entry request act
  refused : entry.broken = true → ∀ w, act.run w = ((.error outOfStep, entry), w)
  faulted : ∀ w fault, ((entry.call launcher request).run w).1.1 = .ok (.fault fault) →
    (act.run w).1 = (.error fault, entry)

theorem asks_command : Asks launcher entry request (entry.command launcher request) where
  calls := Overheard.calls_command launcher entry request
  refused h w := by
    rw [command, StateT.run_bind, run_call_of_broken h]
    rfl
  faulted w fault h := by
    obtain ⟨-, hsame⟩ := eq_of_call_ok h
    rw [command, StateT.run_bind]
    change (successOf ((entry.call launcher request).run w).1.1,
      ((entry.call launcher request).run w).1.2) = _
    rw [h, hsame]
    rfl

theorem asks_invoke : Asks launcher entry request (entry.invoke launcher request) where
  calls := Overheard.calls_invoke launcher entry request
  refused h w := by
    rw [invoke, StateT.run_bind, run_call_of_broken h]
    rfl
  faulted w fault h := by
    obtain ⟨-, hsame⟩ := eq_of_call_ok h
    rw [invoke, StateT.run_bind]
    change (resultOf ((entry.call launcher request).run w).1.1,
      ((entry.call launcher request).run w).1.2) = _
    rw [h, hsame]
    rfl

/-- What comes of an introduction is what the answer to the first request makes of the entry. -/
theorem result_introduce (bind : BindRequest) (process : Nat) (snapshot : Path) (w : World τ) :
    ((introduce launcher bind process snapshot).run w).1 =
      let called := (call launcher ⟨process, snapshot, false, false⟩ .bind).run w
      accept bind called.1.2 called.1.1 := by
  rw [introduce, StateT.run_bind]
  generalize (call launcher ⟨process, snapshot, false, false⟩ .bind).run w = called
  obtain ⟨⟨answer, entry⟩, after⟩ := called
  dsimp only [Bind.bind]
  cases accept bind entry answer <;> rfl

/-- An entry is given only by a unit that says it is bound, and then it can be relied on. -/
theorem of_introduce_ok {bind : BindRequest} {process : Nat} {snapshot : Path} {w : World τ}
    {made : IsolatedEntry}
    (h : ((introduce launcher bind process snapshot).run w).1 = .ok made) :
    made.broken = false ∧ ∃ found capabilities,
      ((call launcher ⟨process, snapshot, false, false⟩ .bind).run w).1.1 =
        .ok (.bound found capabilities) := by
  rw [result_introduce] at h
  obtain ⟨found, capabilities, hanswer, -, rfl⟩ := of_accept_ok h
  obtain ⟨-, hsame⟩ := eq_of_call_ok hanswer
  refine ⟨?_, found, capabilities, hanswer⟩
  rw [hsame]

/-- **An entry is usable just while its requests are answered.**  When no reply comes that the operation
behind its request has no use for, that is while they are answered in kind.  A fault that a unit reports
is told as it is and leaves the entry as it was.  An entry that is not usable any more stays so: whatever
is asked of it is refused, nothing is said to the unit, and nothing that the unit writes is taken for an
answer.  An entry that a loader has just made is usable, and its unit has said that it is bound. -/
theorem entries_are_usable_while_answered (launcher : Launcher τ) (entry : IsolatedEntry)
    (requests : List Request) (w : World τ) :
    let talk := (entry.converse launcher requests).run w
    let now := talk.1.2
    let can := capabilities launcher
    talk.1.1.map Exchange.request = requests ∧
    (can.isUsable now talk.2 = true ↔
      can.isUsable entry w = true ∧ ∀ exchange ∈ talk.1.1, exchange.answered = true) ∧
    ((∀ exchange ∈ talk.1.1, exchange.answered = true → exchange.fits = true) →
      (can.isUsable now talk.2 = true ↔
        can.isUsable entry w = true ∧ ∀ exchange ∈ talk.1.1, exchange.fits = true)) ∧
    (∀ request fault, ((now.call launcher request).run talk.2).1.1 = .ok (.fault fault) →
      ((now.call launcher request).run talk.2).1.2 = now) ∧
    (can.isUsable now talk.2 = false → ∀ more later,
      (now.converse launcher more).run later =
        ((more.map fun request => ⟨request, .error .outOfSync⟩, now), later)) ∧
    (∀ host address, Asks launcher now (.setHost host address) (can.setHost now host address)) ∧
    Asks launcher now .setup (can.setup now) ∧
    (∀ options, Asks launcher now (.run options) (can.run now options)) ∧
    Asks launcher now .reset (can.reset now) ∧
    ∀ bind process snapshot made, ((introduce launcher bind process snapshot).run w).1 = .ok made →
      can.isUsable made w = true ∧ ∃ found names,
        ((call launcher ⟨process, snapshot, false, false⟩ .bind).run w).1.1 =
          .ok (.bound found names) := by
  intro talk now can
  have husable : ∀ (e : IsolatedEntry) (v : World τ),
      can.isUsable e v = true ↔ e.broken = false := by
    intro e v
    change (!e.broken) = true ↔ _
    simp
  have hanswered : can.isUsable now talk.2 = true ↔
      can.isUsable entry w = true ∧ ∀ exchange ∈ talk.1.1, exchange.answered = true := by
    rw [husable, husable]
    exact sound_converse_iff requests w
  refine ⟨request_of_converse requests w, hanswered, ?_, ?_, ?_, fun _ _ => asks_command, asks_invoke,
    fun _ => asks_invoke, asks_command, ?_⟩
  · intro hkind
    rw [hanswered]
    apply and_congr_right
    intro _
    constructor
    · intro hall exchange hmem
      exact hkind exchange hmem (hall exchange hmem)
    · intro hall exchange hmem
      exact Exchange.answered_of_fits (hall exchange hmem)
  · intro request fault hfault
    exact (eq_of_call_ok hfault).2
  · intro hunusable more later
    have hbroken : now.broken = true := by
      change (!now.broken) = false at hunusable
      simpa using hunusable
    exact run_converse_of_broken hbroken more later
  · intro bind process snapshot made hmade
    obtain ⟨hsound, hbound⟩ := of_introduce_ok hmade
    exact ⟨(husable made w).mpr hsound, hbound⟩

section Lamp

/-- The unit says that it is bound, takes its host and fails to set up.  Then it has gone. -/
def lampIsFaulty : World (List Char) :=
  lampWrites ("\x7b\"status\":\"bound\",\"entry\":\"Lamp\"\x7d\n\x7b\"status\":\"done\"\x7d\n" ++
    "\x7b\"status\":\"fault\",\"message\":\"\"\x7d\n")

def lampBinding : BindRequest := ⟨"lamp", 1, ⟨⟨#[1]⟩, none⟩, "Lamp", "local"⟩

/-- The lamp is usable after it has failed to set up, and is not any more after it has gone. -/
theorem faulty_lamp_is_usable_until_it_exits :
    let can := capabilities Launcher.tape
    let faulty :=
      (lampEntry.converse .tape [.bind, .setHost "local" "lamp", .setup]).run lampIsFaulty
    let gone :=
      (lampEntry.converse .tape [.bind, .setHost "local" "lamp", .setup, .run ""]).run lampIsFaulty
    can.isUsable faulty.1.2 faulty.2 = true ∧
    (gone.1.2.converse .tape [.reset]).run gone.2 =
      (([⟨.reset, .error .outOfSync⟩], gone.1.2), gone.2) ∧
    ∀ made, ((introduce .tape lampBinding 0 ⟨"s/1.unit"⟩).run lampIsFaulty).1 = .ok made →
      can.isUsable made lampIsFaulty = true := by
  intro can faulty gone
  obtain ⟨-, -, hkind, -⟩ := entries_are_usable_while_answered .tape lampEntry
    [.bind, .setHost "local" "lamp", .setup] lampIsFaulty
  obtain ⟨-, -, -, -, hgone, -⟩ := entries_are_usable_while_answered .tape lampEntry
    [.bind, .setHost "local" "lamp", .setup, .run ""] lampIsFaulty
  obtain ⟨-, -, -, -, -, -, -, -, -, hbound⟩ :=
    entries_are_usable_while_answered .tape lampEntry [] lampIsFaulty
  have hfits : faulty.1.1.all Exchange.fits = true := by decide +kernel
  have hsilent : can.isUsable gone.1.2 gone.2 = false := by decide +kernel
  rw [List.all_eq_true] at hfits
  dsimp only [can, faulty, gone] at hfits hsilent ⊢
  refine ⟨(hkind fun exchange hmem _ => hfits exchange hmem).mpr ⟨by decide, hfits⟩, ?_, ?_⟩
  · exact hgone hsilent [.reset] _
  · intro made hmade
    exact (hbound lampBinding 0 ⟨"s/1.unit"⟩ made hmade).1

/-- The unit is done twice when it takes its host, so it is out of step from then on. -/
def lampIsDoneTwice : World (List Char) :=
  lampWrites ("\x7b\"status\":\"bound\",\"entry\":\"Lamp\"\x7d\n" ++
    "\x7b\"status\":\"done\"\x7d\n\x7b\"status\":\"done\"\x7d\n" ++
    "\x7b\"status\":\"ok\",\"return_value\":true\x7d\n")

/-- What was written about setting up is taken for the answer of the run, and the unit is usable. -/
theorem lamp_is_kept_out_of_step :
    let talk := (lampEntry.converse .tape [.bind, .setHost "local" "lamp", .setup, .run ""]).run
      lampIsDoneTwice
    (capabilities Launcher.tape).isUsable talk.1.2 talk.2 = true ∧
      talk.1.1.map Exchange.fits = [true, true, false, true] := by
  decide +kernel

end Lamp

end IsolatedEntry

end Automation
