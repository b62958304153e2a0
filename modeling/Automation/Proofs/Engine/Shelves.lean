import Automation.Proofs.Engine.Answers
import Automation.Proofs.Engine.Tenure
import Automation.Proofs.Loading.Shelving
import Automation.Proofs.Publishing.Reworked

/-
Engines and the copies of their units.

An engine that works with isolated units has one copy on the shelf while it is bound, that of the
context in its slot, and none while it is not.  To ask a unit, to compile and to claim an address leave
the shelf alone; binding, giving up an outdated context and tearing down change it by the copy of this
engine.
-/

namespace Automation

open FileAction

/-- Where the copies of an environment are kept, and what else it writes to. -/
structure Depot where
  directory : Path
  extension : String
  store : ArtifactStore
  claims : Claims
  workingDirectory : Location

namespace Depot

variable {τ α : Type} (d : Depot)

/-- The location of the directory with the copies. -/
def place : Location := d.directory.destination d.workingDirectory

/-- There are the copies of some units in the directory, and no other files. -/
def Shelf (copies : UnitCopy → Prop) (t : FileTree) : Prop :=
  Automation.Shelf d.directory d.workingDirectory d.place d.extension copies t

/-- The directory is not around the staging area, and no claim is below it. -/
structure Apart : Prop where
  wellNamed : d.store.WellNamed
  staging : (d.store.programsDir.child ArtifactStore.stagingName).Avoids d.workingDirectory d.place
  claim : ∀ address, isAddress address = true →
    ¬d.place <+: (d.claims.path address).destination d.workingDirectory
  pending : ∀ address, isAddress address = true →
    ¬d.place <+: (d.claims.pendingPath address).destination d.workingDirectory

/-- The way to the directory does not lead through the staging directory of an address. -/
def Clears (address : String) : Prop :=
  isAddress address = true → d.directory.Avoids d.workingDirectory
    ((d.store.desk address).destination d.workingDirectory)

/-- Units are started from copies in the directory, and neither they nor the compiler touch it. -/
structure Equips (compiler : Compiler τ) (loader : UnitLoader τ IsolatedEntry) : Prop where
  loader : ∃ launcher : Launcher τ, launcher.Spares d.directory ∧
    loader = .isolated launcher d.directory d.extension
  compiler : ∀ request w, d.store.IsStaged request.address request.outputPath →
    d.directory.Spared w.host.files ((compiler request).run w).2.host.files

/-- The engine works with units and a compiler that are so equipped. -/
structure Serves (e : Engine τ IsolatedEntry) : Prop extends d.Equips e.compiler e.loader where
  store : e.environment.store = d.store

/-- The files as the depot sees them: there is its directory. -/
structure Stands (t : FileTree) : Prop where
  workingDirectory : t.workingDirectory = d.workingDirectory
  directory : t.node? d.place = some .directory

variable {d} {t t' : FileTree}

theorem Stands.destination (h : d.Stands t) :
    d.directory.destination t.workingDirectory = d.place := by
  rw [h.workingDirectory]
  rfl

theorem Stands.spared (h : d.Stands t) (hspared : d.directory.Spared t t') : d.Stands t' := by
  refine ⟨hspared.workingDirectory.trans h.workingDirectory, ?_⟩
  have hbelow := hspared.below []
  rw [h.destination, List.append_nil] at hbelow
  exact hbelow.trans h.directory

end Depot

namespace Claims

variable {c : Claims} {address : String} {kind : FileOp → Prop}

/-- A step on the claim of an address, or on the pending one. -/
inductive Step (c : Claims) (address : String) : FileOp → Prop where
  | write (content : ByteArray) : Step c address (.write (c.pendingPath address) content)
  | link : Step c address (.link (c.pendingPath address) (c.path address))
  | unlink : Step c address (.unlink (c.path address))
  | withdraw : Step c address (.unlink (c.pendingPath address))

theorem tries_linkPending (c : Claims) (address : String) (attempts : Nat) :
    (c.linkPending address attempts).Tries (c.Step address) := by
  induction attempts with
  | zero => exact tries_pure _
  | succ attempts ih =>
      refine (tries_perform .link).bind fun linked => ?_
      split
      · exact tries_pure _
      · refine (tries_observe _).bind fun holder => (tries_observe _).bind fun foreign => ?_
        split
        · exact tries_pure _
        · refine (tries_perform .unlink).bind fun removed => ?_
          split
          · exact ih
          · exact ih
          · exact tries_pure _
      · exact tries_pure _

theorem tries_acquire (c : Claims) (address : String) :
    (c.acquire address).Tries (c.Step address) := by
  refine (tries_perform (.write _)).bind fun written => ?_
  split
  · exact tries_pure _
  · exact (tries_linkPending c address 3).bind fun _ =>
      (tries_perform .withdraw).bind fun _ => tries_pure _

theorem tries_release (c : Claims) (address : String) :
    (c.release address).Tries (c.Step address) := by
  refine (tries_observe _).bind fun ours => ?_
  split
  · exact (tries_perform .unlink).bind fun _ => tries_pure _
  · exact tries_pure _

end Claims

namespace Registry

variable {r : Registry} {c : Claims} {address : String}

theorem tries_openContext (h : r.claims = some c) (address : String) :
    (r.openContext address).Tries (c.Step address) := by
  rw [openContext]
  split
  · exact tries_pure _
  · rw [claim, h]
    refine (c.tries_acquire address).bind fun claimed => ?_
    split
    · exact tries_pure _
    · exact tries_pure _

theorem tries_closeContext (h : r.claims = some c) (address : String) (generation : Generation) :
    (r.closeContext address generation).Tries (c.Step address) := by
  rw [closeContext]
  split
  · rw [unclaim, h]
    exact (c.tries_release address).bind fun _ => tries_pure _
  · exact tries_pure _

@[simp] theorem claims_openContext (r : Registry) (address : String) (t : FileTree) :
    ((r.openContext address).run t).1.2.claims = r.claims := by
  rcases r.openContext_cases address t with ⟨-, hrun⟩ | ⟨e, hrun⟩ <;> rw [hrun]
  rfl

@[simp] theorem claims_closeContext (r : Registry) (address : String) (generation : Generation)
    (t : FileTree) : ((r.closeContext address generation).run t).1.claims = r.claims := by
  rw [closeContext_run]
  split <;> rfl

@[simp] theorem lastGeneration_closeContext (r : Registry) (address other : String)
    (generation : Generation) (t : FileTree) :
    ((r.closeContext address generation).run t).1.lastGeneration other =
      r.lastGeneration other := by
  rw [closeContext_run]
  split
  · exact lastGeneration_retired ..
  · rfl

theorem lastGeneration_le_openContext (r : Registry) (address other : String) (t : FileTree) :
    r.lastGeneration other ≤ ((r.openContext address).run t).1.2.lastGeneration other := by
  rcases r.openContext_cases address t with ⟨-, hrun⟩ | ⟨e, hrun⟩
  · rw [hrun, lastGeneration_opened]
    split
    · next heq =>
      subst heq
      exact Nat.le_succ _
    · exact le_rfl
  · rw [hrun]

end Registry

namespace Depot

variable {d : Depot} {t : FileTree} {r : Registry} {address : String}

/-- The root is around everything. -/
theorem Apart.place_ne_nil (h : d.Apart) : d.place ≠ [] := by
  intro hroot
  apply h.staging [] List.nil_prefix
  rw [hroot]
  exact List.nil_prefix

/-- What is done to claims leaves the copies alone. -/
theorem Apart.spared_of_tries {α : Type} {action : FileAction α} (h : d.Apart)
    (hwd : t.workingDirectory = d.workingDirectory) (haddress : isAddress address = true)
    (htries : action.Tries (d.claims.Step address)) : d.directory.Spared t (action.run t).2 := by
  apply spared_of_onFiles
  rw [hwd]
  refine htries.mono fun op hop => ?_
  cases hop with
  | write content => exact ⟨_, rfl, h.pending address haddress⟩
  | link => exact ⟨_, rfl, h.claim address haddress⟩
  | unlink => exact ⟨_, rfl, h.claim address haddress⟩
  | withdraw => exact ⟨_, rfl, h.pending address haddress⟩

end Depot

variable {τ α β : Type}

/-- The copy that belongs to the context in a slot, if there is one. -/
def Slot.copy? {ε : Type} (slot : Slot ε) (address : String) : Option UnitCopy :=
  slot.image?.bind fun image => slot.generation?.map fun generation => ⟨address, generation, image⟩

/-- The copy of an engine that is bound. -/
def EngineState.copy? {ε : Type} (s : EngineState τ ε) : Option UnitCopy :=
  s.slot.copy? s.program.address

theorem Slot.copy?_eq_none {ε : Type} {slot : Slot ε} (h : slot.context? = none)
    (address : String) : slot.copy? address = none := by
  rw [copy?, generation?, h]
  cases slot.image? <;> rfl

/-- A context has been opened at this moment, and writing the snapshot of its unit breaks off. -/
def Moment.breaksOff {ε : Type} (S : Path) (extension : String) (moment : Moment τ ε) : Bool :=
  match moment.deed, moment.state.slot.image? with
  | .opened address generation, some image =>
      Snapshot.breaksOff S extension ⟨address, generation, image⟩
        ((moment.state.registry.openContext address).run moment.state.world.host.files).2
  | _, _ => false

/-- On the shelf there is the copy of an engine, as long as it is bound, and those of others. -/
structure Stocked (d : Depot) (others : UnitCopy → Prop) (s : EngineState τ IsolatedEntry) :
    Prop where
  shelf : d.Shelf (fun c => others c ∨ s.copy? = some c)
    s.world.host.files
  apart : ∀ c other, s.copy? = some c → others other → ¬c.SameUnit other
  counted : ∀ c, others c ∨ s.copy? = some c →
    c.generation ≤ s.registry.lastGeneration c.address
  entry : ∀ context, s.slot.context? = some context → context.entry.snapshot =
    Snapshot.path d.directory d.extension s.program.address context.generation
  loaded : s.slot.image? ≠ none → isAddress s.program.address = true
  claims : s.registry.claims = some d.claims

/-- Nothing has become of the copies between two states of an engine. -/
structure EngineState.Steady (d : Depot) (s s' : EngineState τ IsolatedEntry) : Prop where
  spared : d.directory.Spared s.world.host.files s'.world.host.files
  address : s'.program.address = s.program.address
  registry : s'.registry = s.registry
  image : s'.slot.image? = s.slot.image?
  context : s'.slot.context?.map (fun context => (context.generation, context.entry.snapshot)) =
    s.slot.context?.map fun context => (context.generation, context.entry.snapshot)

namespace EngineState.Steady

variable {d : Depot} {s s' s'' : EngineState τ IsolatedEntry}

theorem refl (d : Depot) (s : EngineState τ IsolatedEntry) : s.Steady d s :=
  ⟨.refl _ _, rfl, rfl, rfl, rfl⟩

theorem trans (h : s.Steady d s') (h' : s'.Steady d s'') : s.Steady d s'' :=
  ⟨h.spared.trans h'.spared, h'.address.trans h.address, h'.registry.trans h.registry,
    h'.image.trans h.image, h'.context.trans h.context⟩

/-- Only the world has changed, and it was spared. -/
theorem of_world {w : World τ} (h : d.directory.Spared s.world.host.files w.host.files) :
    s.Steady d { s with world := w } :=
  ⟨h, rfl, rfl, rfl, rfl⟩

theorem copy? (h : s.Steady d s') : s'.copy? = s.copy? := by
  have hgeneration : s'.slot.generation? = s.slot.generation? := by
    have hcontext := congrArg (Option.map Prod.fst) h.context
    simpa only [Option.map_map, Function.comp_def, Slot.generation?] using hcontext
  rw [EngineState.copy?, EngineState.copy?, Slot.copy?, Slot.copy?, h.image, h.address, hgeneration]

end EngineState.Steady

namespace Stocked

variable {d : Depot} {others : UnitCopy → Prop} {s s' : EngineState τ IsolatedEntry}

theorem steady (h : Stocked d others s) (hsteady : s.Steady d s') : Stocked d others s' := by
  obtain ⟨hspared, haddress, hregistry, himage, hcontext⟩ := hsteady
  have hcopy := EngineState.Steady.copy? ⟨hspared, haddress, hregistry, himage, hcontext⟩
  refine ⟨?_, ?_, ?_, ?_, ?_, ?_⟩
  · rw [hcopy]
    exact h.shelf.spared hspared
  · rw [hcopy]
    exact h.apart
  · rw [hcopy, hregistry]
    exact h.counted
  · intro context hbound
    rw [hbound, Option.map_some, eq_comm, Option.map_eq_some_iff] at hcontext
    obtain ⟨before, hbefore, heq⟩ := hcontext
    obtain ⟨hgeneration, hsnapshot⟩ := Prod.mk.inj heq
    rw [← hsnapshot, ← hgeneration, haddress]
    exact h.entry before hbefore
  · rw [himage, haddress]
    exact h.loaded
  · rw [hregistry]
    exact h.claims

theorem stands (h : Stocked d others s) : d.Stands s.world.host.files :=
  ⟨h.shelf.workingDirectory, h.shelf.reaches.directory⟩

/-- The registry may be used for addresses, as long as it goes on counting. -/
theorem register (h : Stocked d others s) {w : World τ} {r : Registry}
    (hspared : d.directory.Spared s.world.host.files w.host.files)
    (hclaims : r.claims = s.registry.claims)
    (hcounters : ∀ address, s.registry.lastGeneration address ≤ r.lastGeneration address) :
    Stocked d others { s with world := w, registry := r } where
  shelf := h.shelf.spared hspared
  apart := h.apart
  counted c hc := (h.counted c hc).trans (hcounters c.address)
  entry := h.entry
  loaded := h.loaded
  claims := hclaims.trans h.claims

variable {address : String}

theorem opened (h : Stocked d others s) (hd : d.Apart) (haddress : isAddress address = true) :
    Stocked d others ((EngineAct.openContext address : EngineAct τ IsolatedEntry _).run s).2 := by
  rw [EngineAct.run_openContext]
  exact h.register (hd.spared_of_tries h.shelf.workingDirectory haddress
    (s.registry.tries_openContext h.claims address)) (s.registry.claims_openContext ..)
    fun other => s.registry.lastGeneration_le_openContext ..

theorem closed (h : Stocked d others s) (generation : Generation) (hd : d.Apart)
    (haddress : isAddress address = true) :
    Stocked d others
      ((EngineAct.closeContext address generation : EngineAct τ IsolatedEntry _).run s).2 := by
  rw [EngineAct.run_closeContext]
  exact h.register (hd.spared_of_tries h.shelf.workingDirectory haddress
    (s.registry.tries_closeContext h.claims address generation))
    (s.registry.claims_closeContext ..)
    fun other => (s.registry.lastGeneration_closeContext ..).ge

variable {launcher : Launcher τ} {context : BoundContext IsolatedEntry} {image : ArtifactImage}

/-- A context that is bound has a copy of its own. -/
theorem copy_of_loaded (hslot : s.slot = .loaded image (some context)) :
    s.copy? = some ⟨s.program.address, context.generation, image⟩ := by
  rw [EngineState.copy?, hslot]
  rfl

/-- Without a context only the copies of others are on the shelf. -/
theorem shelf_of_unbound (h : Stocked d others s) (hslot : s.slot.context? = none) :
    d.Shelf others s.world.host.files := by
  refine h.shelf.congr fun c => ⟨Or.inl, ?_⟩
  rintro (hother | hown)
  · exact hother
  · rw [EngineState.copy?, Slot.copy?_eq_none hslot] at hown
    cases hown

/-- When a context is forgotten and its entry is given up, its copy is gone. -/
theorem released (h : Stocked d others s) (slot : Slot IsolatedEntry)
    (hlauncher : launcher.Spares d.directory) (hbound : s.slot = .loaded image (some context))
    (hempty : slot.context? = none) :
    Stocked d others { s with
      slot := slot
      world := ((context.entry.release launcher).run s.world).2 } := by
  have hcopy := copy_of_loaded hbound
  have hnone : slot.copy? s.program.address = none := Slot.copy?_eq_none hempty _
  have haddress : isAddress s.program.address = true := h.loaded (by rw [hbound]; simp)
  have hreleased := Shelf.released h.shelf hlauncher (Or.inr hcopy)
    (h.entry context (by rw [hbound]; rfl))
  refine ⟨hreleased.congr fun other => ⟨?_, ?_⟩, fun c other hc => ?_, fun c hc => ?_,
    fun found hfound => ?_, fun _ => haddress, h.claims⟩
  · rintro (hother | hown)
    · exact ⟨Or.inl hother, h.apart _ _ hcopy hother⟩
    · cases hnone.symm.trans hown
  · rintro ⟨hother | hown, hnot⟩
    · exact Or.inl hother
    · obtain rfl := Option.some.inj (hcopy.symm.trans hown)
      exact absurd ⟨rfl, rfl⟩ hnot
  · cases hnone.symm.trans hc
  · rcases hc with hother | hown
    · exact h.counted c (Or.inl hother)
    · cases hnone.symm.trans hown
  · cases hempty.symm.trans hfound

/-- With the copy of the unit that it is bound to, an engine that was not bound has its own. -/
theorem bound (h : Stocked d others s) {c : UnitCopy} (haddress : isAddress c.address = true)
    (hown : s.program.address = c.address)
    (hnew : ∀ other, others other → ¬c.SameUnit other)
    (hcounted : c.generation ≤ s.registry.lastGeneration c.address) {w : World τ}
    {entry : IsolatedEntry}
    (hshelf : d.Shelf (fun other => others other ∨ other = c) w.host.files)
    (hentry : entry.snapshot = Snapshot.path d.directory d.extension c.address c.generation) :
    Stocked d others { s with
      world := w
      slot := .loaded c.image (some ⟨c.generation, entry⟩) } := by
  have hcopy : EngineState.copy? { s with
      world := w
      slot := .loaded c.image (some ⟨c.generation, entry⟩) } = some c := by
    rw [EngineState.copy?]
    change some (⟨s.program.address, c.generation, c.image⟩ : UnitCopy) = some c
    rw [hown]
  refine ⟨hshelf.congr fun other => ?_, fun own other hc => ?_, fun other hother => ?_,
    fun context hcontext => ?_, fun _ => hown ▸ haddress, h.claims⟩
  · rw [hcopy, Option.some.injEq, eq_comm (a := c)]
  · obtain rfl := Option.some.inj (hcopy.symm.trans hc)
    exact hnew other
  · rcases hother with hother | hc
    · exact h.counted other (Or.inl hother)
    · obtain rfl := Option.some.inj (hcopy.symm.trans hc)
      exact hcounted
  · obtain rfl := Option.some.inj hcontext
    rw [hentry, ← hown]

/-- A world with the same copies in it will do for an engine that is not bound. -/
theorem unbound (h : Stocked d others s) (hslot : s.slot.context? = none) {w : World τ}
    (hshelf : d.Shelf others w.host.files) : Stocked d others { s with world := w } :=
  ⟨hshelf.congr fun c => by
      rw [EngineState.copy?, Slot.copy?_eq_none hslot]
      simp,
    h.apart, h.counted, h.entry, h.loaded, h.claims⟩

/-- Another slot without a context changes nothing for an engine that is not bound. -/
theorem setSlot (h : Stocked d others s) (hbefore : s.slot.context? = none)
    {slot : Slot IsolatedEntry} (hafter : slot.context? = none)
    (haddress : slot.image? ≠ none → isAddress s.program.address = true) :
    Stocked d others { s with slot := slot } := by
  have hcopy : slot.copy? s.program.address = s.copy? :=
    (Slot.copy?_eq_none hafter _).trans (Slot.copy?_eq_none hbefore _).symm
  refine ⟨?_, ?_, ?_, fun context hbound => ?_, haddress, h.claims⟩
  · exact h.shelf.congr fun c => by rw [EngineState.copy?, hcopy]
  · intro c other hc
    exact h.apart c other (hcopy ▸ hc)
  · intro c hc
    exact h.counted c (hcopy ▸ hc)
  · cases hafter.symm.trans hbound

end Stocked

end Automation
