import Automation.Proofs.Loading.Standing

/-
Entries that an engine may ask twice.

Between `setup` and `run` an engine looks at its entry once more, and would bind another one in place of
one that is not usable any more.  It never comes to that after a `setup` that succeeded: an entry whose
unit runs in a process of its own is usable when it is bound, and an answer leaves it as it is.
-/

namespace Automation

variable {τ ε ε' : Type}

/-- An entry that is usable wherever the world has got to, and still is once `setup` has succeeded. -/
structure Capabilities.Firm (can : Capabilities τ ε) (entry : ε) : Prop where
  usable : ∀ w, can.isUsable entry w = true
  setup : ∀ {w after result entry'}, (can.setup entry).run w = ((.ok result, entry'), after) →
    ∀ later, can.isUsable entry' later = true

/-- Whatever a loader finds is firm once it has taken its host. -/
def UnitLoader.BindsFirm (loader : UnitLoader τ ε) : Prop :=
  ∀ ⦃request w found ready entry after⦄, (loader.bind request).run w = (.ok found, ready) →
    (loader.capabilities.setHost found request.host request.address).run ready =
      ((.ok (), entry), after) →
    loader.capabilities.Firm entry

namespace UnitLoader

/-- An entry is bound when one was found that took its host. -/
theorem of_bindEntry_ok {loader : UnitLoader τ ε} {request : BindRequest} {w after : World τ}
    {entry : ε} (h : (loader.bindEntry request).run w = (.ok entry, after)) :
    ∃ found ready, (loader.bind request).run w = (.ok found, ready) ∧
      (loader.capabilities.setHost found request.host request.address).run ready =
        ((.ok (), entry), after) := by
  rw [bindEntry, StateT.run_bind] at h
  generalize (loader.bind request).run w = bound at h ⊢
  obtain ⟨_ | found, ready⟩ := bound
  · cases h
  · refine ⟨found, ready, rfl, ?_⟩
    dsimp only [Bind.bind] at h
    change StateT.run (loader.capabilities.setHost found request.host request.address >>= _) ready = _
      at h
    rw [StateT.run_bind] at h
    generalize (loader.capabilities.setHost found request.host request.address).run ready = told at h ⊢
    obtain ⟨⟨_ | _, entry'⟩, ready'⟩ := told
    · cases h
    · cases h
      rfl

theorem BindsFirm.firm {loader : UnitLoader τ ε} (h : loader.BindsFirm) {request : BindRequest}
    {w after : World τ} {entry : ε} (hbound : (loader.bindEntry request).run w = (.ok entry, after)) :
    loader.capabilities.Firm entry := by
  obtain ⟨found, ready, hfound, htold⟩ := of_bindEntry_ok hbound
  exact h hfound htold

end UnitLoader

namespace IsolatedEntry

variable {launcher : Launcher τ} {entry : IsolatedEntry}

/-- A unit that does what it is told leaves its entry as it was. -/
theorem eq_of_command_ok {request : Request} {w after : World τ} {entry' : IsolatedEntry}
    (h : (entry.command launcher request).run w = ((.ok (), entry'), after)) :
    entry.broken = false ∧ entry' = entry := by
  rw [command, StateT.run_bind] at h
  have hanswer : successOf ((entry.call launcher request).run w).1.1 = .ok () :=
    congrArg (fun done => done.1.1) h
  have hentry : ((entry.call launcher request).run w).1.2 = entry' :=
    congrArg (fun done => done.1.2) h
  obtain ⟨hsound, hsame⟩ := eq_of_call_ok (eq_of_successOf_ok hanswer)
  exact ⟨hsound, hentry.symm.trans hsame⟩

/-- A unit that gives a result leaves its entry as it was. -/
theorem eq_of_invoke_ok {request : Request} {w after : World τ} {entry' : IsolatedEntry}
    {result : MethodRunResult}
    (h : (entry.invoke launcher request).run w = ((.ok result, entry'), after)) :
    entry' = entry := by
  rw [invoke, StateT.run_bind] at h
  have hanswer : resultOf ((entry.call launcher request).run w).1.1 = .ok result :=
    congrArg (fun done => done.1.1) h
  have hentry : ((entry.call launcher request).run w).1.2 = entry' :=
    congrArg (fun done => done.1.2) h
  rw [resultOf.eq_def] at hanswer
  split at hanswer
  · cases hanswer
  · next reply =>
    exact hentry.symm.trans (eq_of_call_ok reply).2
  · cases hanswer
  · cases hanswer

/-- Entries that can be relied on are firm. -/
theorem firm_of_sound (h : entry.broken = false) : (capabilities launcher).Firm entry := by
  have husable : ∀ w, (capabilities launcher).isUsable entry w = true := by
    intro w
    change (!entry.broken) = true
    rw [h]
    rfl
  refine ⟨husable, fun {w after result entry'} hsetup later => ?_⟩
  obtain rfl := eq_of_invoke_ok hsetup
  exact husable later

theorem bindsFirm_isolated (launcher : Launcher τ) (shadowDir : Path) (extension : String) :
    (UnitLoader.isolated launcher shadowDir extension).BindsFirm := by
  intro request w found ready entry after _ htold
  obtain ⟨hsound, rfl⟩ := eq_of_command_ok htold
  exact firm_of_sound hsound

end IsolatedEntry

namespace UnitLoader

variable {others : Capabilities τ ε} {loader : UnitLoader τ ε'}

/-- To be told apart from other entries makes no difference to an entry. -/
theorem firm_inr {entry : ε'} (h : loader.capabilities.Firm entry) :
    (second others loader).capabilities.Firm (.inr entry) := by
  refine ⟨h.usable, fun {w after result entry'} hsetup => ?_⟩
  have hrun : ((second others loader).capabilities.setup (.inr entry)).run w =
      let answered := (loader.capabilities.setup entry).run w
      ((answered.1.1, .inr answered.1.2), answered.2) := rfl
  rw [hrun] at hsetup
  have hanswer : ((loader.capabilities.setup entry).run w).1.1 = .ok result :=
    congrArg (fun done => done.1.1) hsetup
  obtain rfl := congrArg (fun done => done.1.2) hsetup
  exact h.setup (Prod.ext (Prod.ext hanswer rfl) rfl)

theorem BindsFirm.second (h : loader.BindsFirm) : (second others loader).BindsFirm := by
  intro request w found ready entry after hfound htold
  have hbind : ((UnitLoader.second others loader).bind request).run w =
      let bound := (loader.bind request).run w
      (bound.1.map .inr, bound.2) := rfl
  rw [hbind] at hfound
  cases hran : (loader.bind request).run w with
  | mk answer now =>
      rw [hran] at hfound
      cases answer with
      | error e => cases hfound
      | ok made =>
          obtain rfl : Sum.inr made = found := Except.ok.inj (congrArg Prod.fst hfound)
          obtain rfl : now = ready := congrArg Prod.snd hfound
          have hset : ((UnitLoader.second others loader).capabilities.setHost (.inr made)
              request.host request.address).run now =
                let told := (loader.capabilities.setHost made request.host request.address).run now
                ((told.1.1, .inr told.1.2), told.2) := rfl
          rw [hset] at htold
          have hanswer : ((loader.capabilities.setHost made request.host request.address).run
              now).1.1 = .ok () := congrArg (fun done => done.1.1) htold
          obtain rfl := congrArg (fun done => done.1.2) htold
          exact firm_inr (h hran (Prod.ext (Prod.ext hanswer rfl) rfl))

end UnitLoader

end Automation
