import Automation.Proofs.Loading.Copies
import Automation.Proofs.Loading.Stages

/-
What a loader keeps on its shelf.

A loader that starts units from copies has one more copy on its shelf when it has bound a unit, and
the same copies as before when it has not: whatever goes wrong after the copy was made, it is removed
again.  To ask an entry leaves the shelf alone, and to give it up takes its copy away.  It takes units
that leave the directory of the copies alone.
-/

namespace Automation

variable {τ α : Type} {S : Path} {launcher : Launcher τ}

/-- Neither the launcher nor the units that it starts touch a directory. -/
structure Launcher.Spares (S : Path) (launcher : Launcher τ) : Prop where
  start : ∀ launch, (launcher.start launch).Spares S
  send : ∀ process text, (launcher.send process text).Spares S
  receiveLine : ∀ process, (launcher.receiveLine process).Spares S
  stop : ∀ process, (launcher.stop process).Spares S

namespace IsolatedEntry

variable {entry : IsolatedEntry}

theorem spares_readReply (h : launcher.Spares S) (process lines : Nat) :
    (readReply launcher process lines).Spares S := by
  induction lines with
  | zero => exact Act.spares_pure _
  | succ lines ih =>
      refine (h.receiveLine process).bind fun line => ?_
      split
      · exact Act.spares_pure _
      · split
        · exact Act.spares_pure _
        · split
          · exact ih
          · exact Act.spares_pure _
          · exact Act.spares_pure _

theorem spares_exchange (h : launcher.Spares S) (process : Nat) (request : Request) :
    (exchange launcher process request).Spares S := by
  refine (h.send process request.line).bind fun sent => ?_
  split
  · exact Act.spares_pure _
  · exact fun w => spares_readReply h process _ w

/-- What is asked of an entry spares a directory, and the entry keeps its snapshot. -/
def Asked (S : Path) (entry : IsolatedEntry) (act : Act τ (α × IsolatedEntry)) : Prop :=
  act.Spares S ∧ ∀ w, (act.run w).1.2.snapshot = entry.snapshot

theorem asked_call (h : launcher.Spares S) (entry : IsolatedEntry) (request : Request) :
    Asked S entry (entry.call launcher request) := by
  rw [call]
  split
  · exact ⟨Act.spares_pure _, fun _ => rfl⟩
  · constructor
    · refine (spares_exchange h _ _).bind fun reply => ?_
      split
      · exact Act.spares_pure _
      · exact Act.spares_pure _
    · intro w
      rw [Act.run_bind]
      split <;> rfl

theorem asked_invoke (h : launcher.Spares S) (entry : IsolatedEntry) (request : Request) :
    Asked S entry (entry.invoke launcher request) := by
  obtain ⟨hspares, hsnapshot⟩ := asked_call h entry request
  exact ⟨hspares.bind fun _ => Act.spares_pure _, hsnapshot⟩

theorem asked_command (h : launcher.Spares S) (entry : IsolatedEntry) (request : Request) :
    Asked S entry (entry.command launcher request) := by
  obtain ⟨hspares, hsnapshot⟩ := asked_call h entry request
  exact ⟨hspares.bind fun _ => Act.spares_pure _, hsnapshot⟩

end IsolatedEntry

namespace Shelf

open IsolatedEntry

variable {wd d : Location} {extension : String} {copies : UnitCopy → Prop} {w : World τ}
  {c : UnitCopy} {entry : IsolatedEntry} {request : BindRequest}

/-- To give up an entry takes its copy away. -/
theorem released (h : Shelf S wd d extension copies w.host.files) (hlauncher : launcher.Spares S)
    (hc : copies c)
    (hsnapshot : entry.snapshot = Snapshot.path S extension c.address c.generation) :
    Shelf S wd d extension (fun other => copies other ∧ ¬c.SameUnit other)
      ((entry.release launcher).run w).2.host.files := by
  rw [release, Act.run_bind, Act.files_run_files, hsnapshot]
  exact (h.spared (hlauncher.stop entry.process w)).removed hc

/-- A copy that has been added and is removed again was none. -/
theorem withdrawn {t : FileTree}
    (h : Shelf S wd d extension (fun other => (copies other ∨ other = c) ∧ ¬c.SameUnit other) t)
    (hnew : ∀ other, copies other → ¬c.SameUnit other) : Shelf S wd d extension copies t := by
  refine h.congr fun other => ⟨fun hother => ⟨Or.inl hother, hnew other hother⟩, ?_⟩
  rintro ⟨hother | rfl, hnot⟩
  · exact hother
  · exact absurd ⟨rfl, rfl⟩ hnot

/-- What has become of a request: there is one more copy, and it is that of the entry; or there is
no entry, and all copies are those from before. -/
inductive Answers (S : Path) (wd d : Location) (extension : String) (copies : UnitCopy → Prop)
    (request : BindRequest) : Except BindingError IsolatedEntry × World τ → Prop where
  | bound {entry : IsolatedEntry} {w : World τ}
      (snapshot : entry.snapshot = Snapshot.path S extension request.address request.generation)
      (shelf : Shelf S wd d extension (fun other => copies other ∨ other = request.copy)
        w.host.files) : Answers S wd d extension copies request (.ok entry, w)
  | refused {e : BindingError} {w : World τ} (shelf : Shelf S wd d extension copies w.host.files) :
      Answers S wd d extension copies request (.error e, w)

/-- A unit that minds is given up with its copy. -/
theorem minded
    (h : Shelf S wd d extension (fun other => copies other ∨ other = request.copy) w.host.files)
    (hlauncher : launcher.Spares S) (hnew : ∀ other, copies other → ¬request.copy.SameUnit other)
    (hsnapshot : entry.snapshot =
      Snapshot.path S extension request.address request.generation) :
    Shelf S wd d extension copies ((entry.release launcher).run w).2.host.files :=
  (h.released hlauncher (Or.inr rfl) hsnapshot).withdrawn hnew

theorem answers_introduce
    (h : Shelf S wd d extension (fun other => copies other ∨ other = request.copy) w.host.files)
    (hlauncher : launcher.Spares S) (hnew : ∀ other, copies other → ¬request.copy.SameUnit other)
    (process : Nat) :
    Answers S wd d extension copies request ((introduce launcher request process
      (Snapshot.path S extension request.address request.generation)).run w) := by
  obtain ⟨hspares, hsnapshot⟩ := asked_call hlauncher
    ⟨process, Snapshot.path S extension request.address request.generation, false, false⟩ .bind
  have hasked := h.spared (hspares w)
  have hentry := hsnapshot w
  rw [introduce, Act.run_bind]
  cases hcalled : ((call launcher ⟨process,
      Snapshot.path S extension request.address request.generation, false, false⟩ .bind).run w) with
  | mk answer w' =>
  obtain ⟨reply, found⟩ := answer
  rw [hcalled] at hasked hentry
  dsimp only at hasked hentry ⊢
  cases haccept : accept request found reply with
  | ok made =>
      obtain ⟨-, -, -, -, rfl⟩ := of_accept_ok haccept
      exact .bound hentry hasked
  | error e => exact .refused (hasked.minded hlauncher hnew hentry)

/-- A loader that is asked for a unit has one more copy if it finds it, and else no other. -/
theorem answers_bind (h : Shelf S wd d extension copies w.host.files)
    (hlauncher : launcher.Spares S) (haddress : isAddress request.address = true)
    (hnew : ∀ other, copies other → ¬request.copy.SameUnit other)
    (hwhole : Snapshot.breaksOff S extension request.copy w.host.files = false) :
    Answers S wd d extension copies request
      (((UnitLoader.isolated launcher S extension).bind request).run w) := by
  rw [UnitLoader.isolated, Act.run_bind, Act.run_files]
  rcases h.written haddress hnew hwhole with ⟨t, hrun, hadded⟩ | ⟨e, t, hrun, hsame⟩
  · rw [hrun]
    dsimp only
    rw [Act.run_bind]
    have hstarted := hadded.spared (t := (w.withFiles t).host.files)
      (hlauncher.start (Snapshot.launch
        (Snapshot.path S extension request.address request.generation) request) (w.withFiles t))
    cases hstart : (launcher.start (Snapshot.launch
      (Snapshot.path S extension request.address request.generation) request)).run
        (w.withFiles t) with
    | mk result w' =>
    rw [hstart] at hstarted
    cases result with
    | ok process => exact hstarted.answers_introduce hlauncher hnew process
    | error e =>
        have hgone := (hstarted.removed (Or.inr rfl)).withdrawn hnew
        rw [BindRequest.copy_address, BindRequest.copy_generation] at hgone
        dsimp only
        rw [Act.run_bind, Act.run_files]
        generalize (Snapshot.remove _).run _ = removed at hgone ⊢
        exact .refused hgone
  · rw [hrun]
    exact .refused hsame

/-- The same for a unit that is told its host as well. -/
theorem answers_bindEntry (h : Shelf S wd d extension copies w.host.files)
    (hlauncher : launcher.Spares S) (haddress : isAddress request.address = true)
    (hnew : ∀ other, copies other → ¬request.copy.SameUnit other)
    (hwhole : Snapshot.breaksOff S extension request.copy w.host.files = false) :
    Answers S wd d extension copies request
      (((UnitLoader.isolated launcher S extension).bindEntry request).run w) := by
  have hbound := h.answers_bind hlauncher haddress hnew hwhole
  rw [UnitLoader.bindEntry, Act.run_bind]
  generalize ((UnitLoader.isolated launcher S extension).bind request).run w = made at hbound
  cases hbound with
  | refused hsame => exact .refused hsame
  | @bound entry w' hsnapshot hadded =>
      have htelling : Asked S entry ((UnitLoader.isolated launcher S extension).capabilities.setHost
          entry request.host request.address) := asked_command hlauncher entry _
      dsimp only
      rw [Act.run_bind]
      obtain ⟨hspares, hkept⟩ := htelling
      have htold := hadded.spared (hspares w')
      have hentry := (hkept w').trans hsnapshot
      cases htell : ((UnitLoader.isolated launcher S extension).capabilities.setHost entry
        request.host request.address).run w' with
      | mk answer w'' =>
      obtain ⟨reply, found⟩ := answer
      rw [htell] at htold hentry
      cases reply with
      | ok _ => exact .bound hentry htold
      | error fault => exact .refused (htold.minded hlauncher hnew hentry)

end Shelf

end Automation
