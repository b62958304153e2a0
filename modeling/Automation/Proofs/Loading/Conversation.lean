import Automation.Proofs.Loading.Traffic

/-
Conversations with a unit.

An entry makes its requests one after the other, and each of them finds the entry as the one before has
left it.  As long as its exchanges succeed the entry stays as it is.  The first one that fails closes
it for good: whatever is asked afterwards is refused on the spot, and the world stays as it is.
-/

namespace Automation

namespace Text

/-- The first line of some text with its line feed, and the text after it. -/
def takeLine : List Char → List Char × List Char
  | [] => ([], [])
  | c :: rest =>
      if c = '\n' then ([c], rest)
      else
        let (line, after) := takeLine rest
        (c :: line, after)

end Text

/-- A launcher of units that have written all that they will ever write, and that listen to whatever
they are told.  What is beyond the host is the text that has not been read yet. -/
def Launcher.tape : Launcher (List Char) where
  start _ := pure (.ok 0)
  send _ _ := pure (.ok ())
  receiveLine _ := fun w =>
    let (line, after) := Text.takeLine w.outside
    (.ok (String.ofList line), { w with outside := after })
  waiting _ w := w.outside.length
  stop _ := pure ()

/-- The lamp has been started, and its unit has written the text. -/
def lampWrites (text : String) : World (List Char) :=
  ⟨⟨⟨[], []⟩, ⟨1, []⟩, ⟨0, 0⟩, 0⟩, text.toList⟩

/-- The entry of the lamp before it is bound. -/
def lampEntry : IsolatedEntry := ⟨0, ⟨"s/1.unit"⟩, false, false⟩

/-- The request was answered by a reply of some kind. -/
def Exchange.answered (exchange : Exchange) : Bool := exchange.answer.isOk

namespace IsolatedEntry

variable {τ α : Type} {launcher : Launcher τ} {entry : IsolatedEntry} {request : Request}

/-- One request after the other, each to the entry that the one before has left. -/
def converse (launcher : Launcher τ) (entry : IsolatedEntry) :
    List Request → Act τ (List Exchange × IsolatedEntry)
  | [] => pure ([], entry)
  | request :: rest => do
      let (answer, entry) ← entry.call launcher request
      let (exchanges, entry) ← entry.converse launcher rest
      pure (⟨request, answer⟩ :: exchanges, entry)

@[simp] theorem run_converse_nil (w : World τ) :
    (entry.converse launcher []).run w = (([], entry), w) := rfl

theorem run_converse_cons (rest : List Request) (w : World τ) :
    (entry.converse launcher (request :: rest)).run w =
      let called := (entry.call launcher request).run w
      let later := (called.1.2.converse launcher rest).run called.2
      ((⟨request, called.1.1⟩ :: later.1.1, later.1.2), later.2) := rfl

/-- An entry that cannot be relied on any more is not asked. -/
theorem run_call_of_broken (h : entry.broken = true) (w : World τ) :
    (entry.call launcher request).run w = ((.error .outOfSync, entry), w) := by
  rw [call, if_pos h]
  rfl

/-- Any other entry is asked, and an exchange that fails closes it. -/
theorem run_call_of_sound (h : entry.broken = false) (w : World τ) :
    (entry.call launcher request).run w =
      let exchanged := (exchange launcher entry.process request).run w
      ((exchanged.1, { entry with broken := !exchanged.1.isOk }), exchanged.2) := by
  have hsound : ¬entry.broken = true := by simp [h]
  rw [call, if_neg hsound, StateT.run_bind]
  generalize hran : (exchange launcher entry.process request).run w = ran
  obtain ⟨⟨e⟩ | ⟨reply⟩, after⟩ := ran
  · rfl
  · obtain ⟨process, snapshot, supportsReset, broken⟩ := entry
    subst h
    rfl

/-- The entry can be relied on after a request just when it could be before and was answered. -/
theorem sound_call_iff (w : World τ) :
    ((entry.call launcher request).run w).1.2.broken = false ↔
      entry.broken = false ∧ ((entry.call launcher request).run w).1.1.isOk = true := by
  by_cases h : entry.broken = true
  · rw [run_call_of_broken h]
    simp [h]
  · have hsound : entry.broken = false := by simpa using h
    rw [run_call_of_sound hsound]
    simp [hsound]

/-- An answer leaves the entry as it is. -/
theorem eq_of_call_ok {w : World τ} {reply : Reply}
    (h : ((entry.call launcher request).run w).1.1 = .ok reply) :
    entry.broken = false ∧ ((entry.call launcher request).run w).1.2 = entry := by
  by_cases hbroken : entry.broken = true
  · rw [run_call_of_broken hbroken] at h
    cases h
  · have hsound : entry.broken = false := by simpa using hbroken
    rw [run_call_of_sound hsound] at h ⊢
    obtain ⟨process, snapshot, supportsReset, broken⟩ := entry
    subst hsound
    dsimp only at h ⊢
    rw [h]
    exact ⟨rfl, rfl⟩

theorem request_of_converse (requests : List Request) (w : World τ) :
    ((entry.converse launcher requests).run w).1.1.map Exchange.request = requests := by
  induction requests generalizing entry w with
  | nil => rfl
  | cons request rest ih =>
      rw [run_converse_cons, List.map_cons]
      exact congrArg (request :: ·) (ih _)

/-- The entry can be relied on after some requests just when it could be before and all of them were
answered. -/
theorem sound_converse_iff (requests : List Request) (w : World τ) :
    ((entry.converse launcher requests).run w).1.2.broken = false ↔
      entry.broken = false ∧
        ∀ exchange ∈ ((entry.converse launcher requests).run w).1.1, exchange.answered = true := by
  induction requests generalizing entry w with
  | nil => simp
  | cons request rest ih =>
      rw [run_converse_cons]
      dsimp only
      rw [ih, sound_call_iff, List.forall_mem_cons, and_assoc]
      rfl

/-- Nothing is said by an entry that cannot be relied on any more, and nothing is heard. -/
theorem run_converse_of_broken (h : entry.broken = true) (requests : List Request) (w : World τ) :
    (entry.converse launcher requests).run w =
      ((requests.map fun request => ⟨request, .error .outOfSync⟩, entry), w) := by
  induction requests with
  | nil => rfl
  | cons request rest ih =>
      rw [run_converse_cons, run_call_of_broken h]
      dsimp only
      rw [ih]
      rfl

end IsolatedEntry

end Automation
