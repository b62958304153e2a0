import Automation.Proofs.Engine.Depots
import Automation.Proofs.Loading.Conversation

/-
The snapshots of the contexts that are bound.

From the start of an environment on, the files below its snapshot directory are the copies of the
contexts that are bound, and each of these finds its own where its entry says.  Where the directory is
in the staging directory of an address this fails: a compile clears away copies that are still in use.
-/

namespace Automation

namespace Site

variable {τ : Type} {d : Depot} {home : Nat} {s : Site τ IsolatedEntry}

/-- The files in a depot are those of the contexts that are bound. -/
structure Accounts (d : Depot) (s : Site τ IsolatedEntry) : Prop where
  /-- There are the files of the copies, and no others. -/
  files : ∀ rest content, s.world.host.files.contentAt? (d.place ++ rest) = some content ↔
    ∃ c, s.Copies c ∧ c.Has d.extension rest content
  /-- No two engines have a file in the same place. -/
  apart : ∀ id other c c' rest, s.copyOf? id = some c → s.copyOf? other = some c' →
    c.IsPlace d.extension rest → c'.IsPlace d.extension rest → id = other
  /-- Whoever is bound has the copy of its context, and its entry says where that is. -/
  bound : ∀ id record context, Table.get? id s.engines = some record →
    record.slot.context? = some context → ∃ c, s.copyOf? id = some c ∧
      s.addressOf? record.program = some c.address ∧ context.generation = c.generation ∧
      record.slot.image? = some c.image ∧
      context.entry.snapshot = Snapshot.path d.directory d.extension c.address c.generation ∧
      s.world.host.files.content? context.entry.snapshot = some c.image.bytes ∧
      s.world.host.files.content? (Snapshot.symbolsPath context.entry.snapshot) = c.image.debug

theorem Holdings.accounts (h : s.Holdings d home) : s.Accounts d := by
  constructor
  · intro rest content
    cases hhome : Table.get? home s.environments with
    | some shared => exact (h.shelf (by rw [hhome]; simp)).content rest content
    | none =>
        obtain ⟨hunbound, hnone⟩ := h.shut hhome
        rw [hnone]
        refine iff_of_false (by simp) ?_
        rintro ⟨c, ⟨id, hc⟩, -⟩
        cases (copyOf?_eq_none_of_context? (hunbound id)).symm.trans hc
  · intro id other c c' rest hc hc' hplace hplace'
    exact h.apart id other c c' hc hc' (hplace.sameUnit hplace')
  · intro id record context hrecord hcontext
    have hhome : Table.get? home s.environments ≠ none := by
      intro hnone
      cases ((h.shut hnone).1 id record hrecord).symm.trans hcontext
    cases hslot : record.slot with
    | unloaded =>
        rw [hslot] at hcontext
        cases hcontext
    | loaded image bound =>
        obtain rfl : bound = some context := by rwa [hslot] at hcontext
        have himage : record.slot.image? = some image := by rw [hslot]; rfl
        obtain ⟨address, haddress⟩ :=
          Option.ne_none_iff_exists'.mp (h.seated id record hrecord (by rw [himage]; simp)).2
        have hcopy : s.copyOf? id = some ⟨address, context.generation, image⟩ := by
          rw [copyOf?_eq hrecord haddress, hslot]
          rfl
        have hentry := h.entry id record address context hrecord haddress hcontext
        have hread := (h.shelf hhome).read ⟨id, hcopy⟩ fun other ⟨n, hother⟩ hsame => by
          obtain rfl := h.apart _ _ _ _ hcopy hother hsame
          exact Option.some.inj (hother.symm.trans hcopy)
        rw [← hentry] at hread
        exact ⟨_, hcopy, haddress, rfl, rfl, hentry, hread⟩

/-- Whatever happens from the start of an environment on, the files below its snapshot directory are
those of the contexts that are bound. -/
theorem snapshots_are_those_of_bound_contexts {w : World τ} {config : EngineConfig}
    {shared : SharedEnvironment} {extension : String} {events : List (SiteEvent τ IsolatedEntry)}
    (hsound : w.host.files.Sound) (hself : w.host.processes.self < Environment.pidLimit)
    (hstart : Table.get? 0 ((ofWorld w : Site τ IsolatedEntry).after
      [.startEnvironment config]).environments = some shared)
    (hsuits : ∀ event ∈ events, event.Suits
      (shared.environment.depot extension w.host.files.workingDirectory))
    (hwhole : ∀ moment ∈ ((ofWorld w : Site τ IsolatedEntry).after
      [.startEnvironment config]).momentsThrough events,
        moment.2.breaksOff shared.environment.snapshotDir extension = false) :
    (((ofWorld w : Site τ IsolatedEntry).after [.startEnvironment config]).after events).Accounts
      (shared.environment.depot extension w.host.files.workingDirectory) := by
  obtain ⟨hapart, hholdings⟩ := holdings_started hsound hself hstart extension
  exact (hholdings.after hapart hsuits hwhole).accounts

end Site

section Lamp

/-- A host with the unit of the lamp and its symbols, and all that the unit will ever write. -/
def lampYard : World (List Char) where
  host :=
    { files := ⟨[], [(["p"], .directory), (["p", "lamp.unit"], .file "unit".toUTF8 false),
        (["p", "lamp.unit.pdb"], .file "symbols".toUTF8 false)]⟩
      processes := ⟨1, []⟩
      now := ⟨0, 0⟩
      fresh := 0 }
  outside :=
    ["\x7b\"status\":\"bound\",\"entry\":\"Lamp\",\"capabilities\":[\"set_host\",\"setup\",\"run\"]\x7d\n",
      "\x7b\"status\":\"done\"\x7d\n",
      "\x7b\"status\":\"ok\",\"return_value\":true,\"state\":null\x7d\n"].flatMap String.toList

theorem lampYard_sound : lampYard.host.files.Sound :=
  .of_entries (by decide) (by decide +kernel)

/-- An environment has started there, with its snapshots somewhere below a directory. -/
def lampHome (shadowDir : String) : Site (List Char) IsolatedEntry :=
  (Site.ofWorld lampYard).after
    [.startEnvironment { EngineConfig.standard with
      programsDir := ⟨"p"⟩, shadowDir := ⟨shadowDir⟩, entryType := "Lamp" }]

/-- A compiler that has nothing to say and makes nothing. -/
def Compiler.idle : Compiler (List Char) := fun _ => pure (.ok [])

/-- An engine for the lamp, with its copies in a directory, is given some orders. -/
def lampEvents (S : Path) (orders : List Order) : List (SiteEvent (List Char) IsolatedEntry) :=
  .addProgram (.ofSource "lamp" "on") :: .addEngine 0 1 .idle (.isolated .tape S "unit") ::
    orders.map (.order 2)

/-- What has become of it. -/
def lampNow (shadowDir : String) (S : Path) (orders : List Order) :
    Site (List Char) IsolatedEntry :=
  (lampHome shadowDir).after (lampEvents S orders)

/-- Neither its compiler nor its unit touches a file. -/
theorem equips_idle_tape (d : Depot) :
    d.Equips .idle (.isolated .tape d.directory d.extension) where
  loader :=
    ⟨.tape, ⟨fun _ => Act.spares_pure _, fun _ _ => Act.spares_pure _,
      fun _ _ => .refl _ _, fun _ => Act.spares_pure _⟩, rfl⟩
  compiler _ _ _ := .refl _ _

theorem suits_lampEvents {d : Depot} {S : Path} {orders : List Order}
    (hS : d.directory = S) (hextension : d.extension = "unit") (hclears : d.Clears "lamp") :
    ∀ event ∈ lampEvents S orders, event.Suits d := by
  intro event hevent
  rw [lampEvents, List.mem_cons, List.mem_cons, List.mem_map] at hevent
  rcases hevent with rfl | rfl | ⟨order, -, rfl⟩
  · exact hclears
  · have hequips := equips_idle_tape d
    rwa [hS, hextension] at hequips
  · trivial

theorem lamp_is_set_up :
    ∃ shared ∈ Table.get? 0 (lampHome "s").environments,
      shared.environment.snapshotDir.Avoids []
        ((shared.environment.store.desk "lamp").destination []) ∧
      (∀ moment ∈ (lampHome "s").momentsThrough
        (lampEvents shared.environment.snapshotDir [.load, .setup]),
          moment.2.breaksOff shared.environment.snapshotDir "unit" = false) ∧
      (lampNow "s" shared.environment.snapshotDir [.load, .setup]).copyOf? 2 =
        some ⟨"lamp", 1, "unit".toUTF8, some "symbols".toUTF8⟩ := by
  decide +kernel

/-- The lamp that is set up runs from its copy, and there is nothing else below the directory. -/
theorem snapshot_of_lamp :
    ∃ shared, Table.get? 0 (lampHome "s").environments = some shared ∧
      (lampNow "s" shared.environment.snapshotDir [.load, .setup]).Accounts
        (shared.environment.depot "unit" []) ∧
      (lampNow "s" shared.environment.snapshotDir [.load, .setup]).copyOf? 2 =
        some ⟨"lamp", 1, "unit".toUTF8, some "symbols".toUTF8⟩ := by
  obtain ⟨shared, hstart, havoids, hwhole, hcopy⟩ := lamp_is_set_up
  refine ⟨shared, hstart, ?_, hcopy⟩
  exact Site.snapshots_are_those_of_bound_contexts lampYard_sound (by decide) hstart
    (suits_lampEvents rfl rfl fun _ => havoids) hwhole

theorem staged_lamp_is_compiled :
    ∃ shared ∈ Table.get? 0 (lampHome "p/.staging/lamp").environments,
      (∀ moment ∈ (lampHome "p/.staging/lamp").momentsThrough
        (lampEvents shared.environment.snapshotDir [.load, .setup, .compile]),
          moment.2.breaksOff shared.environment.snapshotDir "unit" = false) ∧
      (lampNow "p/.staging/lamp" shared.environment.snapshotDir
        [.load, .setup, .compile]).copyOf? 2 =
          some ⟨"lamp", 1, "unit".toUTF8, some "symbols".toUTF8⟩ ∧
      (lampNow "p/.staging/lamp" shared.environment.snapshotDir
        [.load, .setup, .compile]).world.host.files.contentAt?
          (shared.environment.snapshotDir.destination [] ++ ["lamp", "1.unit"]) = none := by
  decide +kernel

/-- With the directory in the staging directory of its own address, the lamp that is compiled still
runs, but its copy has been cleared away. -/
theorem no_snapshot_of_staged_lamp :
    ∃ shared, Table.get? 0 (lampHome "p/.staging/lamp").environments = some shared ∧
      (shared.environment.depot "unit" []).Equips .idle
        (.isolated .tape shared.environment.snapshotDir "unit") ∧
      (∀ moment ∈ (lampHome "p/.staging/lamp").momentsThrough
        (lampEvents shared.environment.snapshotDir [.load, .setup, .compile]),
          moment.2.breaksOff shared.environment.snapshotDir "unit" = false) ∧
      (lampNow "p/.staging/lamp" shared.environment.snapshotDir
        [.load, .setup, .compile]).copyOf? 2 =
          some ⟨"lamp", 1, "unit".toUTF8, some "symbols".toUTF8⟩ ∧
      ¬(lampNow "p/.staging/lamp" shared.environment.snapshotDir
        [.load, .setup, .compile]).Accounts (shared.environment.depot "unit" []) := by
  obtain ⟨shared, hstart, hwhole, hcopy, hnone⟩ := staged_lamp_is_compiled
  refine ⟨shared, hstart, equips_idle_tape (shared.environment.depot "unit" []), hwhole,
    hcopy, fun haccounts => ?_⟩
  have hthere := (haccounts.files ["lamp", "1.unit"] "unit".toUTF8).mpr
    ⟨_, ⟨2, hcopy⟩, UnitCopy.has_name_iff.mpr rfl⟩
  exact absurd (hnone.symm.trans hthere) (by simp)

end Lamp

end Automation
