import Automation.Proofs.Engine.Housekeeping
import Automation.Proofs.Engine.Tenure

/-
Live generations and bound contexts.

As long as only engines use the registries of a site, every live generation is held by exactly one
engine, and every engine that is bound holds a live one.  An engine that works changes the live
generation of one address in one environment, and only while it holds it or nobody does.
-/

namespace Automation

namespace Table

variable {α : Type} {table : Table Nat α} {n m : Nat}

/-- All keys of a table are less than a number. -/
def Below (n : Nat) (table : Table Nat α) : Prop :=
  ∀ id value, get? id table = some value → id < n

theorem Below.mono (h : Below n table) (hle : n ≤ m) : Below m table :=
  fun id value hget => Nat.lt_of_lt_of_le (h id value hget) hle

theorem Below.put {key : Nat} {value : α} (h : Below n table) (hkey : key < n) :
    Below n (put key value table) := by
  intro id found hget
  rw [get?_put] at hget
  split at hget
  · next hsame => exact hsame ▸ hkey
  · exact h id found hget

theorem Below.erase {key : Nat} (h : Below n table) : Below n (erase key table) := by
  intro id found hget
  rw [get?_erase] at hget
  split at hget
  · cases hget
  · exact h id found hget

theorem Below.get?_eq_none (h : Below n table) : get? n table = none := by
  cases hget : get? n table with
  | none => rfl
  | some value => exact absurd (h n value hget) (Nat.lt_irrefl n)

end Table

variable {τ ε : Type}

namespace Site

/-- An engine is bound for a generation of the address of its program. -/
def Holds (s : Site τ ε) (id environment : Nat) (address : String) (g : Generation) : Prop :=
  ∃ record p, Table.get? id s.engines = some record ∧
    Table.get? record.program s.programs = some p ∧ record.environment = environment ∧
      p.address = address ∧ record.slot.generation? = some g

/-- The live generation of an address in an environment. -/
def liveGeneration (s : Site τ ε) (environment : Nat) (address : String) : Option Generation :=
  (Table.get? environment s.environments).bind fun shared =>
    shared.registry.liveGeneration address

/-- Numbers are given out in order, and an engine that is bound has a program. -/
structure Tidy (s : Site τ ε) : Prop where
  environments : Table.Below s.next s.environments
  engines : Table.Below s.next s.engines
  programs : Table.Below s.next s.programs
  program : ∀ id record, Table.get? id s.engines = some record →
    record.slot.generation? ≠ none → ∃ p, Table.get? record.program s.programs = some p

/-- The engines and the registries agree on what is bound. -/
structure InStep (s : Site τ ε) : Prop where
  tidy : s.Tidy
  backed : ∀ id environment address g, s.Holds id environment address g →
    s.liveGeneration environment address = some g
  held : ∀ environment address g, s.liveGeneration environment address = some g →
    ∃ id, s.Holds id environment address g
  unique : ∀ id other environment address g, s.Holds id environment address g →
    s.Holds other environment address g → id = other

theorem inStep_ofWorld (w : World τ) : (ofWorld w : Site τ ε).InStep where
  tidy :=
    { environments := by simp [ofWorld, Table.Below]
      engines := by simp [ofWorld, Table.Below]
      programs := by simp [ofWorld, Table.Below]
      program := by simp [ofWorld] }
  backed := by simp [ofWorld, Holds]
  held := by simp [ofWorld, liveGeneration]
  unique := by simp [ofWorld, Holds]

section Work

variable {s : Site τ ε} {id : Nat} {record : EngineRecord τ ε} {shared : SharedEnvironment}
  {p : ProgramBlock} {after : EngineState τ ε}

/-- What the engine that has worked holds is in its slot, and the others hold what they held. -/
theorem holds_withEngineState
    (hp : Table.get? record.program s.programs = some p)
    (haddress : after.program.address = p.address) {other environment : Nat} {address : String}
    {g : Generation} :
    (s.withEngineState id shared record after).Holds other environment address g ↔
      if other = id then
        record.environment = environment ∧ p.address = address ∧ after.slot.generation? = some g
      else s.Holds other environment address g := by
  simp only [Holds, withEngineState, Table.get?_put]
  split
  · next hother =>
    constructor
    · rintro ⟨_, p', hsome, hp', rfl, rfl, hg⟩
      obtain rfl := Option.some.inj hsome
      rw [if_pos rfl] at hp'
      obtain rfl := Option.some.inj hp'
      exact ⟨rfl, haddress.symm, hg⟩
    · rintro ⟨henvironment, rfl, hg⟩
      exact ⟨_, after.program, rfl, if_pos rfl, henvironment, haddress, hg⟩
  · constructor
    · rintro ⟨record', p', hrecord', hp', henvironment, hat, hg⟩
      split at hp'
      · next hsame =>
        obtain rfl := Option.some.inj hp'
        exact ⟨record', p, hrecord', hsame ▸ hp, henvironment, haddress ▸ hat, hg⟩
      · exact ⟨record', p', hrecord', hp', henvironment, hat, hg⟩
    · rintro ⟨record', p', hrecord', hp', henvironment, hat, hg⟩
      by_cases hsame : record'.program = record.program
      · rw [hsame, hp] at hp'
        obtain rfl := Option.some.inj hp'
        exact ⟨record', after.program, hrecord', if_pos hsame, henvironment, haddress.trans hat, hg⟩
      · exact ⟨record', p', hrecord', (if_neg hsame).trans hp', henvironment, hat, hg⟩

theorem liveGeneration_withEngineState (environment : Nat) (address : String) :
    (s.withEngineState id shared record after).liveGeneration environment address =
      if environment = record.environment then after.registry.liveGeneration address
      else s.liveGeneration environment address := by
  simp only [liveGeneration, withEngineState, Table.get?_put]
  split <;> rfl

variable {openings : List Generation}

/-- While another engine holds the address, an engine that works changes nothing. -/
theorem InStep.waits (h : s.InStep) (hseat : s.seat? id = some (record, shared, p))
    (hchanges : Tenure.Changes p.address (s.engineState shared p record).tenure openings
      after.tenure) {other : Nat} {g : Generation} (hother : other ≠ id)
    (hholds : s.Holds other record.environment p.address g) :
    after.registry = shared.registry ∧ after.slot.generation? = none := by
  obtain ⟨hrecord, hshared, hp⟩ := seat?_eq_some_iff.mp hseat
  have hlive : shared.registry.liveGeneration p.address = some g := by
    have hbacked := h.backed _ _ _ _ hholds
    rwa [liveGeneration, hshared] at hbacked
  have hnone : record.slot.generation? = none := by
    cases hslot : record.slot.generation? with
    | none => rfl
    | some mine =>
        have hmine : s.Holds id record.environment p.address mine :=
          ⟨record, p, hrecord, hp, rfl, rfl, hslot⟩
        have hbacked := h.backed _ _ _ _ hmine
        rw [liveGeneration, hshared] at hbacked
        obtain rfl := Option.some.inj (hlive.symm.trans hbacked)
        exact absurd (h.unique _ _ _ _ _ hholds hmine) hother
  obtain ⟨hkept, _⟩ := hchanges.waits hnone (by
    rw [show (s.engineState shared p record).tenure.registry = shared.registry from rfl, hlive]
    simp)
  exact ⟨congrArg Tenure.registry hkept, (congrArg Tenure.bound hkept).trans hnone⟩

/-- Unless another engine holds the address, an engine that works and its registry agree on it. -/
theorem InStep.agrees (h : s.InStep) (hseat : s.seat? id = some (record, shared, p))
    (hchanges : Tenure.Changes p.address (s.engineState shared p record).tenure openings
      after.tenure)
    (hnobody : ∀ other g, other ≠ id → ¬ s.Holds other record.environment p.address g) :
    after.registry.liveGeneration p.address = after.slot.generation? := by
  obtain ⟨hrecord, hshared, hp⟩ := seat?_eq_some_iff.mp hseat
  refine hchanges.inStep ?_
  change shared.registry.liveGeneration p.address = record.slot.generation?
  have hlive : s.liveGeneration record.environment p.address =
      shared.registry.liveGeneration p.address := by
    rw [liveGeneration, hshared]
    rfl
  cases hslot : record.slot.generation? with
  | some g =>
      exact hlive.symm.trans (h.backed _ _ _ _ ⟨record, p, hrecord, hp, rfl, rfl, hslot⟩)
  | none =>
      cases hfound : shared.registry.liveGeneration p.address with
      | none => rfl
      | some g =>
          obtain ⟨holder, hholds⟩ := h.held _ _ _ (hlive.trans hfound)
          have hsame : holder = id := by
            by_contra hne
            exact hnobody holder g hne hholds
          obtain ⟨record', _, hrecord', _, _, _, hg⟩ := hsame ▸ hholds
          obtain rfl := Option.some.inj (hrecord.symm.trans hrecord')
          rw [hslot] at hg
          cases hg

/-- What others hold is live still when an engine has worked. -/
theorem InStep.backed_of_ne (h : s.InStep) (hseat : s.seat? id = some (record, shared, p))
    (hchanges : Tenure.Changes p.address (s.engineState shared p record).tenure openings
      after.tenure) {other environment : Nat} {address : String} {g : Generation}
    (hother : other ≠ id) (hholds : s.Holds other environment address g) :
    (s.withEngineState id shared record after).liveGeneration environment address = some g := by
  obtain ⟨_, hshared, _⟩ := seat?_eq_some_iff.mp hseat
  have hbefore := h.backed _ _ _ _ hholds
  rw [liveGeneration_withEngineState]
  split
  · next henvironment =>
    subst henvironment
    rw [liveGeneration, hshared] at hbefore
    by_cases haddress : address = p.address
    · subst haddress
      rw [(h.waits hseat hchanges hother hholds).1]
      exact hbefore
    · exact ((hchanges.elsewhere haddress).1).trans hbefore
  · exact hbefore

/-- An engine that works keeps a site tidy. -/
theorem Tidy.work (h : s.Tidy) (hseat : s.seat? id = some (record, shared, p)) :
    (s.withEngineState id shared record after).Tidy := by
  obtain ⟨hrecord, hshared, hp⟩ := seat?_eq_some_iff.mp hseat
  constructor
  · exact h.environments.put (h.environments _ _ hshared)
  · exact h.engines.put (h.engines _ _ hrecord)
  · exact h.programs.put (h.programs _ _ hp)
  · intro other found hfound hbound
    have hprogram : ∃ q, Table.get? found.program s.programs = some q := by
      simp only [withEngineState, Table.get?_put] at hfound
      split at hfound
      · obtain rfl := Option.some.inj hfound
        exact ⟨p, hp⟩
      · exact h.program other found hfound hbound
    obtain ⟨q, hq⟩ := hprogram
    simp only [withEngineState, Table.get?_put]
    split
    · exact ⟨_, rfl⟩
    · exact ⟨q, hq⟩

/-- An engine that works keeps all in step. -/
theorem InStep.work (h : s.InStep) (hseat : s.seat? id = some (record, shared, p))
    (haddress : after.program.address = p.address)
    (hchanges : Tenure.Changes p.address (s.engineState shared p record).tenure openings
      after.tenure) : (s.withEngineState id shared record after).InStep := by
  obtain ⟨hrecord, hshared, hp⟩ := seat?_eq_some_iff.mp hseat
  have hnot : ∀ other g, other ≠ id → s.Holds other record.environment p.address g →
      after.slot.generation? = none := by
    intro other g hother hholds
    exact (h.waits hseat hchanges hother hholds).2
  refine ⟨h.tidy.work hseat, ?_, ?_, ?_⟩
  · intro other environment address g hholds
    rw [holds_withEngineState hp haddress] at hholds
    split at hholds
    · obtain ⟨rfl, rfl, hg⟩ := hholds
      rw [liveGeneration_withEngineState, if_pos rfl, ← hg]
      refine h.agrees hseat hchanges fun another g' hne hholds => ?_
      rw [hnot another g' hne hholds] at hg
      cases hg
    · next hne => exact h.backed_of_ne hseat hchanges hne hholds
  · intro environment address g hg
    by_cases hmine : ∃ other g', other ≠ id ∧ s.Holds other environment address g'
    · obtain ⟨other, g', hne, hholds⟩ := hmine
      have hlive := h.backed_of_ne hseat hchanges hne hholds
      obtain rfl := Option.some.inj (hlive.symm.trans hg)
      exact ⟨other, (holds_withEngineState hp haddress).mpr (by rwa [if_neg hne])⟩
    · have hnobody : ∀ other g', other ≠ id → ¬ s.Holds other environment address g' :=
        fun other g' hne hholds => hmine ⟨other, g', hne, hholds⟩
      by_cases hat : environment = record.environment ∧ address = p.address
      · obtain ⟨rfl, rfl⟩ := hat
        rw [liveGeneration_withEngineState, if_pos rfl, h.agrees hseat hchanges hnobody] at hg
        exact ⟨id, (holds_withEngineState hp haddress).mpr (by rw [if_pos rfl]; exact ⟨rfl, rfl, hg⟩)⟩
      · have hbefore : s.liveGeneration environment address = some g := by
          rw [liveGeneration_withEngineState] at hg
          split at hg
          · next henvironment =>
            subst henvironment
            have haway : address ≠ p.address := fun heq => hat ⟨rfl, heq⟩
            rw [liveGeneration, hshared]
            exact ((hchanges.elsewhere haway).1).symm.trans hg
          · exact hg
        obtain ⟨holder, hholds⟩ := h.held _ _ _ hbefore
        by_cases hholder : holder = id
        · obtain ⟨record', p', hrecord', hp', henvironment, haddress', _⟩ := hholder ▸ hholds
          obtain rfl := Option.some.inj (hrecord.symm.trans hrecord')
          obtain rfl := Option.some.inj (hp.symm.trans hp')
          exact absurd ⟨henvironment.symm, haddress'.symm⟩ hat
        · exact absurd hholds (hnobody holder g hholder)
  · intro other another environment address g hholds hagain
    rw [holds_withEngineState hp haddress] at hholds hagain
    split at hholds
    · next hsame =>
      obtain ⟨rfl, rfl, hg⟩ := hholds
      split at hagain
      · next hsame' => exact hsame.trans hsame'.symm
      · next hne =>
        rw [hnot another g hne hagain] at hg
        cases hg
    · next hne =>
      split at hagain
      · obtain ⟨rfl, rfl, hg⟩ := hagain
        rw [hnot other g hne hholds] at hg
        cases hg
      · exact h.unique _ _ _ _ _ hholds hagain

end Work

/-- Nothing has changed that is held, live or counted. -/
structure Undisturbed (s s' : Site τ ε) : Prop where
  next_le : s.next ≤ s'.next
  tidy : s.Tidy → s'.Tidy
  holds : ∀ id environment address g,
    s'.Holds id environment address g ↔ s.Holds id environment address g
  live : ∀ environment address,
    s'.liveGeneration environment address = s.liveGeneration environment address
  registry : ∀ environment shared', Table.get? environment s'.environments = some shared' →
    environment < s.next → ∃ shared, Table.get? environment s.environments = some shared ∧
      shared.registry = shared'.registry

theorem Undisturbed.refl (s : Site τ ε) : s.Undisturbed s :=
  ⟨Nat.le_refl _, id, fun _ _ _ _ => Iff.rfl, fun _ _ => rfl,
    fun _ shared hshared _ => ⟨shared, hshared, rfl⟩⟩

theorem Undisturbed.trans {s s' s'' : Site τ ε} (h : s.Undisturbed s') (h' : s'.Undisturbed s'') :
    s.Undisturbed s'' where
  next_le := Nat.le_trans h.next_le h'.next_le
  tidy := h'.tidy ∘ h.tidy
  holds id environment address g := (h'.holds id environment address g).trans (h.holds _ _ _ _)
  live environment address := (h'.live environment address).trans (h.live _ _)
  registry environment shared'' hshared'' hlt := by
    obtain ⟨shared', hshared', hsame'⟩ :=
      h'.registry environment shared'' hshared'' (Nat.lt_of_lt_of_le hlt h.next_le)
    obtain ⟨shared, hshared, hsame⟩ := h.registry environment shared' hshared' hlt
    exact ⟨shared, hshared, hsame.trans hsame'⟩

theorem InStep.undisturbed {s s' : Site τ ε} (h : s.InStep) (hsame : s.Undisturbed s') :
    s'.InStep where
  tidy := hsame.tidy h.tidy
  backed id environment address g hholds := by
    rw [hsame.live]
    exact h.backed id environment address g ((hsame.holds _ _ _ _).mp hholds)
  held environment address g hlive := by
    rw [hsame.live] at hlive
    obtain ⟨id, hholds⟩ := h.held environment address g hlive
    exact ⟨id, (hsame.holds _ _ _ _).mpr hholds⟩
  unique id other environment address g hholds hagain :=
    h.unique id other environment address g ((hsame.holds _ _ _ _).mp hholds)
      ((hsame.holds _ _ _ _).mp hagain)

section Around

variable {s : Site τ ε}

theorem undisturbed_withWorld (s : Site τ ε) (w : World τ) :
    s.Undisturbed { s with world := w } :=
  ⟨Nat.le_refl _, fun h => ⟨h.environments, h.engines, h.programs, h.program⟩,
    fun _ _ _ _ => Iff.rfl, fun _ _ => rfl, fun _ shared hshared _ => ⟨shared, hshared, rfl⟩⟩

/-- A new program is nobody's yet. -/
theorem undisturbed_addProgram (h : s.Tidy) (p : ProgramBlock) :
    s.Undisturbed
      { s with next := s.next + 1, programs := Table.put s.next p s.programs } := by
  have hfresh : Table.get? s.next s.programs = none := h.programs.get?_eq_none
  refine ⟨Nat.le_succ _, fun _ => ?_, fun id environment address g => ?_, fun _ _ => rfl,
    fun _ shared hshared _ => ⟨shared, hshared, rfl⟩⟩
  · refine ⟨h.environments.mono (Nat.le_succ _), h.engines.mono (Nat.le_succ _),
      (h.programs.mono (Nat.le_succ _)).put (Nat.lt_succ_self _), ?_⟩
    intro id record hrecord hbound
    obtain ⟨q, hq⟩ := h.program id record hrecord hbound
    simp only [Table.get?_put]
    split
    · exact ⟨p, rfl⟩
    · exact ⟨q, hq⟩
  · simp only [Holds, Table.get?_put]
    constructor
    · rintro ⟨record, q, hrecord, hq, henvironment, haddress, hg⟩
      obtain ⟨q', hq'⟩ := h.program id record hrecord (by simp [hg])
      have hne : record.program ≠ s.next := by
        intro hsame
        rw [hsame, hfresh] at hq'
        cases hq'
      rw [if_neg hne] at hq
      exact ⟨record, q, hrecord, hq, henvironment, haddress, hg⟩
    · rintro ⟨record, q, hrecord, hq, henvironment, haddress, hg⟩
      have hne : record.program ≠ s.next := by
        intro hsame
        rw [hsame, hfresh] at hq
        cases hq
      exact ⟨record, q, hrecord, (if_neg hne).trans hq, henvironment, haddress, hg⟩

/-- Nothing that is edited changes what is held, as long as the address stays. -/
theorem undisturbed_editProgram {id : Nat} {p q : ProgramBlock}
    (hp : Table.get? id s.programs = some p) (haddress : q.address = p.address) :
    s.Undisturbed { s with programs := Table.put id q s.programs } := by
  refine ⟨Nat.le_refl _, fun h => ?_, fun engine environment address g => ?_, fun _ _ => rfl,
    fun _ shared hshared _ => ⟨shared, hshared, rfl⟩⟩
  · refine ⟨h.environments, h.engines, h.programs.put (h.programs _ _ hp), ?_⟩
    intro engine record hrecord hbound
    obtain ⟨found, hfound⟩ := h.program engine record hrecord hbound
    simp only [Table.get?_put]
    split
    · exact ⟨q, rfl⟩
    · exact ⟨found, hfound⟩
  · simp only [Holds, Table.get?_put]
    constructor
    · rintro ⟨record, found, hrecord, hfound, henvironment, hat, hg⟩
      split at hfound
      · next hsame =>
        obtain rfl := Option.some.inj hfound
        exact ⟨record, p, hrecord, hsame ▸ hp, henvironment, haddress ▸ hat, hg⟩
      · exact ⟨record, found, hrecord, hfound, henvironment, hat, hg⟩
    · rintro ⟨record, found, hrecord, hfound, henvironment, hat, hg⟩
      by_cases hsame : record.program = id
      · rw [hsame, hp] at hfound
        obtain rfl := Option.some.inj hfound
        exact ⟨record, q, hrecord, if_pos hsame, henvironment, haddress.trans hat, hg⟩
      · exact ⟨record, found, hrecord, (if_neg hsame).trans hfound, henvironment, hat, hg⟩

/-- A new engine holds nothing. -/
theorem undisturbed_addEngine (h : s.Tidy) {record : EngineRecord τ ε}
    (hslot : record.slot.generation? = none) :
    s.Undisturbed
      { s with next := s.next + 1, engines := Table.put s.next record s.engines } := by
  have hfresh : Table.get? s.next s.engines = none := h.engines.get?_eq_none
  refine ⟨Nat.le_succ _, fun _ => ?_, fun id environment address g => ?_, fun _ _ => rfl,
    fun _ shared hshared _ => ⟨shared, hshared, rfl⟩⟩
  · refine ⟨h.environments.mono (Nat.le_succ _),
      (h.engines.mono (Nat.le_succ _)).put (Nat.lt_succ_self _),
      h.programs.mono (Nat.le_succ _), ?_⟩
    intro id found hfound hbound
    simp only [Table.get?_put] at hfound
    split at hfound
    · obtain rfl := Option.some.inj hfound
      exact absurd hslot hbound
    · exact h.program id found hfound hbound
  · simp only [Holds, Table.get?_put]
    constructor
    · rintro ⟨found, p, hfound, hp, henvironment, haddress, hg⟩
      split at hfound
      · obtain rfl := Option.some.inj hfound
        rw [hslot] at hg
        cases hg
      · exact ⟨found, p, hfound, hp, henvironment, haddress, hg⟩
    · rintro ⟨found, p, hfound, hp, henvironment, haddress, hg⟩
      have hne : id ≠ s.next := by
        intro hsame
        rw [hsame, hfresh] at hfound
        cases hfound
      exact ⟨found, p, (if_neg hne).trans hfound, hp, henvironment, haddress, hg⟩

/-- A new environment without generations changes nothing. -/
theorem undisturbed_startEnvironment (h : s.Tidy) {shared : SharedEnvironment}
    (hslots : shared.registry.slots = []) :
    s.Undisturbed
      { s with next := s.next + 1, environments := Table.put s.next shared s.environments } := by
  have hfresh : Table.get? s.next s.environments = none := h.environments.get?_eq_none
  have hempty : ∀ address, shared.registry.liveGeneration address = none := by
    intro address
    simp [Registry.liveGeneration, Registry.slot, hslots]
  refine ⟨Nat.le_succ _, fun _ => ?_, fun _ _ _ _ => Iff.rfl, fun environment address => ?_, ?_⟩
  · exact ⟨(h.environments.mono (Nat.le_succ _)).put (Nat.lt_succ_self _),
      h.engines.mono (Nat.le_succ _), h.programs.mono (Nat.le_succ _), h.program⟩
  · simp only [liveGeneration, Table.get?_put]
    split
    · next hsame =>
      rw [hsame, hfresh]
      exact hempty address
    · rfl
  · intro environment found hfound hlt
    simp only [Table.get?_put, if_neg (Nat.ne_of_lt hlt)] at hfound
    exact ⟨found, hfound, rfl⟩

/-- It does not matter who holds an environment. -/
theorem undisturbed_shareEnvironment {id : Nat} {shared shared' : SharedEnvironment}
    (hshared : Table.get? id s.environments = some shared)
    (hregistry : shared.registry = shared'.registry) :
    s.Undisturbed { s with environments := Table.put id shared' s.environments } := by
  refine ⟨Nat.le_refl _, fun h => ?_, fun _ _ _ _ => Iff.rfl, fun environment address => ?_, ?_⟩
  · exact ⟨h.environments.put (h.environments _ _ hshared), h.engines, h.programs, h.program⟩
  · simp only [liveGeneration, Table.get?_put]
    split
    · next hsame =>
      rw [hsame, hshared]
      exact congrArg (fun r : Registry => r.liveGeneration address) hregistry.symm
    · rfl
  · intro environment found hfound _
    simp only [Table.get?_put] at hfound
    split at hfound
    · next hsame =>
      obtain rfl := Option.some.inj hfound
      exact ⟨shared, hsame ▸ hshared, hregistry⟩
    · exact ⟨found, hfound, rfl⟩

/-- An environment without engines has nothing live. -/
theorem undisturbed_removeEnvironment (h : s.InStep) {id : Nat}
    (hunused : ∀ engine record, Table.get? engine s.engines = some record →
      record.environment ≠ id) :
    s.Undisturbed { s with environments := Table.erase id s.environments } := by
  refine ⟨Nat.le_refl _, fun h => ?_, fun _ _ _ _ => Iff.rfl, fun environment address => ?_, ?_⟩
  · exact ⟨h.environments.erase, h.engines, h.programs, h.program⟩
  · cases hlive : s.liveGeneration environment address with
    | none =>
        simp only [liveGeneration, Table.get?_erase]
        split
        · rfl
        · exact hlive
    | some g =>
        obtain ⟨engine, record, _, hrecord, _, henvironment, _⟩ := h.held _ _ _ hlive
        have hne : environment ≠ id := henvironment ▸ hunused engine record hrecord
        simp only [liveGeneration, Table.get?_erase, if_neg hne]
        exact hlive
  · intro environment found hfound _
    simp only [Table.get?_erase] at hfound
    split at hfound
    · cases hfound
    · exact ⟨found, hfound, rfl⟩

/-- An engine that is not bound holds nothing. -/
theorem undisturbed_removeEngine {id : Nat}
    (hslot : ∀ record, Table.get? id s.engines = some record → record.slot.generation? = none) :
    s.Undisturbed { s with engines := Table.erase id s.engines } := by
  refine ⟨Nat.le_refl _, fun h => ?_, fun engine environment address g => ?_, fun _ _ => rfl,
    fun _ shared hshared _ => ⟨shared, hshared, rfl⟩⟩
  · refine ⟨h.environments, h.engines.erase, h.programs, ?_⟩
    intro engine record hrecord hbound
    simp only [Table.get?_erase] at hrecord
    split at hrecord
    · cases hrecord
    · exact h.program engine record hrecord hbound
  · simp only [Holds, Table.get?_erase]
    constructor
    · rintro ⟨record, p, hrecord, hp, henvironment, haddress, hg⟩
      split at hrecord
      · cases hrecord
      · exact ⟨record, p, hrecord, hp, henvironment, haddress, hg⟩
    · rintro ⟨record, p, hrecord, hp, henvironment, haddress, hg⟩
      have hne : engine ≠ id := by
        rintro rfl
        rw [hslot record hrecord] at hg
        cases hg
      exact ⟨record, p, (if_neg hne).trans hrecord, hp, henvironment, haddress, hg⟩

end Around

end Site

end Automation
