import Automation.Proofs.Engine.Correspondence
import Automation.Proofs.Engine.Tidiness

/-
The copies of all the units at a site.

In an environment whose engines keep their copies in one directory, every engine that is bound has one
copy there, that of its context, and there are no other files.  Generations are never given out twice,
so no two engines have the same copy.  This holds from the start of the environment on, whatever the
engines are told, and when the environment goes away all files go with it.
-/

namespace Automation

variable {τ ε : Type}

namespace Site

/-- The address of a program. -/
def addressOf? (s : Site τ ε) (program : Nat) : Option String :=
  (Table.get? program s.programs).map ProgramBlock.address

/-- The copy of an engine that is bound. -/
def copyOf? (s : Site τ ε) (id : Nat) : Option UnitCopy :=
  (Table.get? id s.engines).bind fun record =>
    (s.addressOf? record.program).bind record.slot.copy?

/-- The copies of the engines that are bound. -/
def Copies (s : Site τ ε) (c : UnitCopy) : Prop := ∃ id, s.copyOf? id = some c

/-- All files below the directory of a depot are the copies of the engines that are bound, each of
one engine.  The engines that have one are in the environment with this number, and once that is gone
there are neither copies nor files. -/
structure Holdings (d : Depot) (home : Nat) (s : Site τ IsolatedEntry) : Prop where
  workingDirectory : s.world.host.files.workingDirectory = d.workingDirectory
  environment : ∀ n shared, Table.get? n s.environments = some shared → n = home ∧
    shared.environment.store = d.store ∧ shared.environment.snapshotDir = d.directory ∧
      shared.registry.claims = some d.claims
  engines : Table.Below s.next s.engines
  programs : Table.Below s.next s.programs
  equipped : ∀ id record, Table.get? id s.engines = some record →
    d.Equips record.compiler record.loader
  clear : ∀ n address, s.addressOf? n = some address → d.Clears address
  seated : ∀ id record, Table.get? id s.engines = some record → record.slot.image? ≠ none →
    record.environment = home ∧ s.addressOf? record.program ≠ none
  entry : ∀ id record address context, Table.get? id s.engines = some record →
    s.addressOf? record.program = some address → record.slot.context? = some context →
      context.entry.snapshot =
        Snapshot.path d.directory d.extension address context.generation
  loaded : ∀ id record address, Table.get? id s.engines = some record →
    s.addressOf? record.program = some address → record.slot.image? ≠ none →
      isAddress address = true
  apart : ∀ id other c c', s.copyOf? id = some c → s.copyOf? other = some c' → c.SameUnit c' →
    id = other
  counted : ∀ shared c, Table.get? home s.environments = some shared → s.Copies c →
    c.generation ≤ shared.registry.lastGeneration c.address
  shelf : Table.get? home s.environments ≠ none → d.Shelf s.Copies s.world.host.files
  shut : Table.get? home s.environments = none →
    (∀ id record, Table.get? id s.engines = some record → record.slot.context? = none) ∧
      ∀ rest, s.world.host.files.contentAt? (d.place ++ rest) = none

section Lookup

variable {s s' : Site τ ε} {id other : Nat} {record : EngineRecord τ ε} {address : String}
  {c : UnitCopy}

theorem addressOf?_eq {n : Nat} {p : ProgramBlock} (hp : Table.get? n s.programs = some p) :
    s.addressOf? n = some p.address := by
  rw [addressOf?, hp, Option.map_some]

theorem copyOf?_eq (hrecord : Table.get? id s.engines = some record)
    (haddress : s.addressOf? record.program = some address) :
    s.copyOf? id = record.slot.copy? address := by
  rw [copyOf?, hrecord, Option.bind_some, haddress, Option.bind_some]

theorem copyOf?_eq_some (h : s.copyOf? id = some c) :
    ∃ record context, Table.get? id s.engines = some record ∧
      s.addressOf? record.program = some c.address ∧ record.slot.context? = some context ∧
        record.slot.image? = some c.image ∧ context.generation = c.generation := by
  obtain ⟨record, hrecord, h⟩ := Option.bind_eq_some_iff.mp h
  obtain ⟨address, haddress, h⟩ := Option.bind_eq_some_iff.mp h
  obtain ⟨image, himage, h⟩ := Option.bind_eq_some_iff.mp h
  obtain ⟨generation, hgeneration, rfl⟩ := Option.map_eq_some_iff.mp h
  obtain ⟨context, hcontext, rfl⟩ := Option.map_eq_some_iff.mp hgeneration
  exact ⟨record, context, hrecord, haddress, hcontext, himage, rfl⟩

theorem copyOf?_eq_none_of_context? (hslot : ∀ record, Table.get? id s.engines = some record →
    record.slot.context? = none) : s.copyOf? id = none := by
  cases hcopy : s.copyOf? id with
  | none => rfl
  | some c =>
      obtain ⟨record, context, hrecord, -, hcontext, -⟩ := copyOf?_eq_some hcopy
      cases (hslot record hrecord).symm.trans hcontext

/-- An engine changes the slot of its own, and the address of no program. -/
theorem addressOf?_withEngineState (id : Nat) (shared : SharedEnvironment) {p : ProgramBlock}
    {after : EngineState τ ε} (hp : Table.get? record.program s.programs = some p)
    (haddress : after.program.address = p.address) (n : Nat) :
    (s.withEngineState id shared record after).addressOf? n = s.addressOf? n := by
  rw [addressOf?, addressOf?, withEngineState, Table.get?_put]
  split
  · next heq => rw [heq, hp, Option.map_some, Option.map_some, haddress]
  · rfl

theorem copyOf?_withEngineState (id : Nat) (shared : SharedEnvironment) {p : ProgramBlock}
    {after : EngineState τ ε} (hp : Table.get? record.program s.programs = some p)
    (haddress : after.program.address = p.address) (other : Nat) :
    (s.withEngineState id shared record after).copyOf? other =
      if other = id then after.copy? else s.copyOf? other := by
  have hsame := funext (addressOf?_withEngineState id shared hp haddress)
  rw [copyOf?, hsame]
  simp only [withEngineState, Table.get?_put]
  split
  · rw [Option.bind_some, addressOf?_eq hp, Option.bind_some, EngineState.copy?, haddress]
  · rfl

end Lookup

namespace Holdings

variable {d : Depot} {home id : Nat} {s : Site τ IsolatedEntry} {record : EngineRecord τ IsolatedEntry}
  {shared : SharedEnvironment} {p : ProgramBlock} {after : EngineState τ IsolatedEntry}

/-- The copies of the other engines. -/
def Others (s : Site τ IsolatedEntry) (id : Nat) (c : UnitCopy) : Prop :=
  ∃ other, other ≠ id ∧ s.copyOf? other = some c

/-- Whoever has a seat is in the environment of the depot. -/
theorem seat (h : s.Holdings d home) (hseat : s.seat? id = some (record, shared, p)) :
    record.environment = home ∧ Table.get? home s.environments = some shared ∧
      d.Serves (engineOf shared record) ∧ d.Clears p.address := by
  obtain ⟨hrecord, hshared, hp⟩ := seat?_eq_some_iff.mp hseat
  obtain ⟨hhome, hstore, -⟩ := h.environment _ _ hshared
  exact ⟨hhome, hhome ▸ hshared, ⟨h.equipped _ _ hrecord, hstore⟩,
    h.clear record.program p.address (addressOf?_eq hp)⟩

theorem copies_iff (s : Site τ IsolatedEntry) (id : Nat) (c : UnitCopy) :
    s.Copies c ↔ Others s id c ∨ s.copyOf? id = some c := by
  constructor
  · rintro ⟨other, hc⟩
    by_cases heq : other = id
    · exact Or.inr (heq ▸ hc)
    · exact Or.inl ⟨other, heq, hc⟩
  · rintro (⟨other, -, hc⟩ | hc)
    · exact ⟨other, hc⟩
    · exact ⟨id, hc⟩

/-- An engine finds on the shelf the copies of the others and its own. -/
theorem stocked (h : s.Holdings d home) (hseat : s.seat? id = some (record, shared, p)) :
    Stocked d (Others s id) (s.engineState shared p record) := by
  obtain ⟨hrecord, hshared, hp⟩ := seat?_eq_some_iff.mp hseat
  obtain ⟨-, hhome, -⟩ := h.seat hseat
  have haddress := addressOf?_eq hp
  have hcopy : (s.engineState shared p record).copy? = s.copyOf? id :=
    (copyOf?_eq hrecord haddress).symm
  have hcopies : ∀ c, Others s id c ∨ (s.engineState shared p record).copy? = some c ↔
      s.Copies c := by
    intro c
    rw [hcopy, copies_iff s id]
  refine ⟨(h.shelf (by rw [hhome]; simp)).congr hcopies, fun c other hc hother hsame => ?_,
    fun c hc => h.counted shared c hhome ((hcopies c).mp hc),
    fun context hcontext => h.entry id record p.address context hrecord haddress hcontext,
    fun himage => h.loaded id record p.address hrecord haddress himage,
    (h.environment _ _ hshared).2.2.2⟩
  obtain ⟨n, hne, hn⟩ := hother
  exact hne (h.apart _ _ _ _ (hcopy ▸ hc) hn hsame).symm

/-- When an engine leaves the shelf as it should, all goes on. -/
theorem work (h : s.Holdings d home) (hseat : s.seat? id = some (record, shared, p))
    (haddress : after.program.address = p.address) (hafter : Stocked d (Others s id) after) :
    (s.withEngineState id shared record after).Holdings d home := by
  obtain ⟨hrecord, hshared, hp⟩ := seat?_eq_some_iff.mp hseat
  obtain ⟨henvironment, hhome, -⟩ := h.seat hseat
  have hown := addressOf?_eq hp
  have hsame := addressOf?_withEngineState id shared hp haddress
  have hcopy := copyOf?_withEngineState id shared hp haddress
  have hothers : ∀ c, Others (s.withEngineState id shared record after) id c ↔ Others s id c := by
    intro c
    refine exists_congr fun other => and_congr_right fun hne => ?_
    rw [hcopy, if_neg hne]
  have hcopies : ∀ c, (s.withEngineState id shared record after).Copies c ↔
      Others s id c ∨ after.copy? = some c := by
    intro c
    rw [copies_iff _ id, hothers, hcopy, if_pos rfl]
  have hengine : ∀ n found,
      Table.get? n (s.withEngineState id shared record after).engines = some found →
        n = id ∧ found = { record with slot := after.slot, notices := after.notices } ∨
          n ≠ id ∧ Table.get? n s.engines = some found := by
    intro n found hfound
    simp only [withEngineState, Table.get?_put] at hfound
    split at hfound
    · next heq => exact Or.inl ⟨heq, (Option.some.inj hfound).symm⟩
    · next hne => exact Or.inr ⟨hne, hfound⟩
  constructor
  · exact hafter.shelf.workingDirectory
  · intro n found hfound
    simp only [withEngineState, Table.get?_put] at hfound
    split at hfound
    · next heq =>
      obtain rfl := Option.some.inj hfound
      obtain ⟨-, hstore, hdirectory, -⟩ := h.environment _ _ hshared
      exact ⟨heq.trans henvironment, hstore, hdirectory, hafter.claims⟩
    · exact h.environment n found hfound
  · exact h.engines.put (h.engines _ _ hrecord)
  · exact h.programs.put (h.programs _ _ hp)
  · intro n found hfound
    rcases hengine n found hfound with ⟨rfl, rfl⟩ | ⟨-, hbefore⟩
    · exact h.equipped _ record hrecord
    · exact h.equipped n found hbefore
  · intro n address hn
    exact h.clear n address (hsame n ▸ hn)
  · intro n found hfound himage
    rw [hsame]
    rcases hengine n found hfound with ⟨rfl, rfl⟩ | ⟨-, hbefore⟩
    · exact ⟨henvironment, by rw [hown]; simp⟩
    · exact h.seated n found hbefore himage
  · intro n found address context hfound haddr hcontext
    rw [hsame] at haddr
    rcases hengine n found hfound with ⟨rfl, rfl⟩ | ⟨-, hbefore⟩
    · obtain rfl := Option.some.inj (hown.symm.trans haddr)
      rw [← haddress]
      exact hafter.entry context hcontext
    · exact h.entry n found address context hbefore haddr hcontext
  · intro n found address hfound haddr himage
    rw [hsame] at haddr
    rcases hengine n found hfound with ⟨rfl, rfl⟩ | ⟨-, hbefore⟩
    · obtain rfl := Option.some.inj (hown.symm.trans haddr)
      rw [← haddress]
      exact hafter.loaded himage
    · exact h.loaded n found address hbefore haddr himage
  · intro n other c c' hc hc' hunit
    rw [hcopy] at hc hc'
    by_cases hn : n = id
    · by_cases hother : other = id
      · exact hn.trans hother.symm
      · rw [if_pos hn] at hc
        rw [if_neg hother] at hc'
        exact absurd hunit (hafter.apart c c' hc ⟨other, hother, hc'⟩)
    · rw [if_neg hn] at hc
      by_cases hother : other = id
      · rw [if_pos hother] at hc'
        exact absurd ⟨hunit.1.symm, hunit.2.symm⟩ (hafter.apart c' c hc' ⟨n, hn, hc⟩)
      · rw [if_neg hother] at hc'
        exact h.apart n other c c' hc hc' hunit
  · intro found c hfound hc
    simp only [withEngineState, Table.get?_put, henvironment, if_true] at hfound
    obtain rfl := Option.some.inj hfound
    exact hafter.counted c ((hcopies c).mp hc)
  · exact fun _ => hafter.shelf.congr hcopies
  · intro hnone
    simp [withEngineState, Table.get?_put, henvironment] at hnone

/-- Nothing becomes of the files when the world spares them. -/
theorem of_world (h : s.Holdings d home) {w : World τ}
    (hspared : d.directory.Spared s.world.host.files w.host.files) :
    { s with world := w }.Holdings d home := by
  refine { h with
    workingDirectory := hspared.workingDirectory.trans h.workingDirectory
    shelf := fun hhome => (h.shelf hhome).spared hspared
    shut := fun hnone => ⟨(h.shut hnone).1, fun rest => ?_⟩ }
  have hcontent := hspared.contentAt? rest
  rw [h.workingDirectory] at hcontent
  exact hcontent.trans ((h.shut hnone).2 rest)

/-- The environment may be held by others, and its registry go on counting. -/
theorem share (h : s.Holdings d home) (hhome : Table.get? home s.environments = some shared)
    (shared' : SharedEnvironment) (henvironment : shared'.environment = shared.environment)
    (hclaims : shared'.registry.claims = shared.registry.claims)
    (hcounters : ∀ address,
      shared.registry.lastGeneration address ≤ shared'.registry.lastGeneration address) :
    { s with environments := Table.put home shared' s.environments }.Holdings d home := by
  obtain ⟨-, hstore, hdirectory, hclaimed⟩ := h.environment _ _ hhome
  refine { h with
    environment := fun n found hfound => ?_
    counted := fun found c hfound hc => ?_
    shelf := fun _ => h.shelf (by rw [hhome]; simp)
    shut := fun hnone => ?_ }
  · simp only [Table.get?_put] at hfound
    split at hfound
    · next heq =>
      obtain rfl := Option.some.inj hfound
      exact ⟨heq, henvironment ▸ hstore, henvironment ▸ hdirectory, hclaims.trans hclaimed⟩
    · exact h.environment n found hfound
  · simp only [Table.get?_put, if_true] at hfound
    obtain rfl := Option.some.inj hfound
    exact (h.counted shared c hhome hc).trans (hcounters c.address)
  · simp [Table.get?_put] at hnone

/-- When engines come that have loaded nothing and programs that are nobody's yet, or go, or are
edited, the copies stay. -/
theorem resettle (h : s.Holdings d home) {s' : Site τ IsolatedEntry} (hworld : s'.world = s.world)
    (henvironments : s'.environments = s.environments)
    (hengines : Table.Below s'.next s'.engines) (hprograms : Table.Below s'.next s'.programs)
    (hequipped : ∀ id record, Table.get? id s'.engines = some record →
      d.Equips record.compiler record.loader)
    (hclear : ∀ n address, s'.addressOf? n = some address → d.Clears address)
    (hkept : ∀ id record, Table.get? id s'.engines = some record → record.slot.image? ≠ none →
      Table.get? id s.engines = some record ∧
        s'.addressOf? record.program = s.addressOf? record.program)
    (hstays : ∀ id record, Table.get? id s.engines = some record → record.slot.context? ≠ none →
      Table.get? id s'.engines = some record) : s'.Holdings d home := by
  have hbound : ∀ (record : EngineRecord τ IsolatedEntry) context,
      record.slot.context? = some context → record.slot.image? ≠ none := by
    intro record context hcontext
    cases hslot : record.slot with
    | unloaded =>
        rw [hslot] at hcontext
        cases hcontext
    | loaded image bound => simp
  have hcopies : ∀ id, s'.copyOf? id = s.copyOf? id := by
    intro id
    refine Option.ext fun c => ⟨fun hc => ?_, fun hc => ?_⟩
    · obtain ⟨record, context, hrecord, haddress, hcontext, -⟩ := copyOf?_eq_some hc
      obtain ⟨hbefore, hlook⟩ := hkept id record hrecord (hbound record context hcontext)
      rw [copyOf?_eq hrecord haddress] at hc
      rw [copyOf?_eq hbefore (hlook ▸ haddress), hc]
    · obtain ⟨record, context, hrecord, haddress, hcontext, -⟩ := copyOf?_eq_some hc
      have hnow := hstays id record hrecord (by rw [hcontext]; simp)
      obtain ⟨-, hlook⟩ := hkept id record hnow (hbound record context hcontext)
      rw [copyOf?_eq hrecord haddress] at hc
      rw [copyOf?_eq hnow (hlook ▸ haddress), hc]
  have hsame : s'.Copies = s.Copies := by
    funext c
    simp only [Copies, hcopies]
  refine ⟨hworld ▸ h.workingDirectory, henvironments ▸ h.environment, hengines, hprograms, hequipped,
    hclear, fun id record hrecord himage => ?_,
    fun id record address context hrecord haddress hcontext => ?_,
    fun id record address hrecord haddress himage => ?_, ?_, ?_, ?_, fun hnone => ⟨?_, ?_⟩⟩
  · obtain ⟨hbefore, haddress⟩ := hkept id record hrecord himage
    rw [haddress]
    exact h.seated id record hbefore himage
  · obtain ⟨hbefore, hlook⟩ := hkept id record hrecord (hbound record context hcontext)
    exact h.entry id record address context hbefore (hlook ▸ haddress) hcontext
  · obtain ⟨hbefore, hlook⟩ := hkept id record hrecord himage
    exact h.loaded id record address hbefore (hlook ▸ haddress) himage
  · simpa only [hcopies] using h.apart
  · rw [henvironments, hsame]
    exact h.counted
  · rw [henvironments, hsame, hworld]
    exact h.shelf
  · intro id record hrecord
    cases hcontext : record.slot.context? with
    | none => rfl
    | some context =>
        obtain ⟨hbefore, -⟩ := hkept id record hrecord (hbound record context hcontext)
        exact hcontext.symm.trans ((h.shut (henvironments ▸ hnone)).1 id record hbefore)
  · rw [hworld]
    exact (h.shut (henvironments ▸ hnone)).2

/-- A new engine has nothing loaded. -/
theorem addEngine (h : s.Holdings d home) (hrecord : d.Equips record.compiler record.loader)
    (hslot : record.slot = .unloaded) :
    { s with next := s.next + 1, engines := Table.put s.next record s.engines }.Holdings d home := by
  have hfresh := h.engines.get?_eq_none
  refine h.resettle rfl rfl ((h.engines.mono (Nat.le_succ _)).put (Nat.lt_succ_self _))
    (h.programs.mono (Nat.le_succ _)) (fun id found hfound => ?_) h.clear
    (fun id found hfound himage => ⟨?_, rfl⟩) fun id found hfound _ => ?_
  · simp only [Table.get?_put] at hfound
    split at hfound
    · exact Option.some.inj hfound ▸ hrecord
    · exact h.equipped id found hfound
  · simp only [Table.get?_put] at hfound
    split at hfound
    · obtain rfl := Option.some.inj hfound
      exact absurd (by rw [hslot]; rfl) himage
    · exact hfound
  · have hne : id ≠ s.next := by
      rintro rfl
      cases hfresh.symm.trans hfound
    simp only [Table.get?_put, if_neg hne, hfound]

/-- An engine that is not bound goes away without a trace. -/
theorem removeEngine (h : s.Holdings d home)
    (hslot : ∀ record, Table.get? id s.engines = some record → record.slot.context? = none) :
    { s with engines := Table.erase id s.engines }.Holdings d home := by
  have hbefore : ∀ n found, Table.get? n (Table.erase id s.engines) = some found →
      Table.get? n s.engines = some found := by
    intro n found hfound
    rw [Table.get?_erase] at hfound
    split at hfound
    · cases hfound
    · exact hfound
  refine h.resettle rfl rfl h.engines.erase h.programs
    (fun n found hfound => h.equipped n found (hbefore n found hfound)) h.clear
    (fun n found hfound _ => ⟨hbefore n found hfound, rfl⟩) fun n found hfound hbound => ?_
  have hne : n ≠ id := by
    rintro rfl
    exact hbound (hslot found hfound)
  simp only [Table.get?_erase, if_neg hne, hfound]

/-- A program takes a place that was nobody's, or keeps its address. -/
theorem putProgram (h : s.Holdings d home) {n next : Nat} {q : ProgramBlock} (hn : n < next)
    (hnext : s.next ≤ next) (hclear : d.Clears q.address)
    (hbefore : ∀ address, s.addressOf? n = some address → q.address = address) :
    { s with next := next, programs := Table.put n q s.programs }.Holdings d home := by
  have hlook : ∀ m, Site.addressOf? { s with next := next, programs := Table.put n q s.programs } m =
      if m = n then some q.address else s.addressOf? m := by
    intro m
    simp only [addressOf?, Table.get?_put]
    split <;> rfl
  refine h.resettle rfl rfl (h.engines.mono hnext) ((h.programs.mono hnext).put hn) h.equipped
    (fun m address hm => ?_) (fun id record hrecord himage => ⟨hrecord, ?_⟩)
    fun id record hrecord _ => hrecord
  · rw [hlook] at hm
    split at hm
    · exact Option.some.inj hm ▸ hclear
    · exact h.clear m address hm
  · rw [hlook]
    split
    · next heq =>
      obtain ⟨address, haddress⟩ := Option.ne_none_iff_exists'.mp (h.seated id record hrecord himage).2
      rw [haddress, hbefore address (heq ▸ haddress)]
    · rfl

/-- When the environment goes away, and no engine is in it any more, nothing is left. -/
theorem release (h : s.Holdings d home) (hd : d.Apart)
    (hhome : Table.get? home s.environments = some shared)
    (hunused : ∀ id record, Table.get? id s.engines = some record → record.environment ≠ home) :
    { s with
      world := s.world.withFiles (shared.environment.release.run s.world.host.files).2
      environments := Table.erase home s.environments }.Holdings d home := by
  have hempty : ∀ id record, Table.get? id s.engines = some record →
      record.slot.image? = none := by
    intro id record hrecord
    by_contra himage
    exact hunused id record hrecord (h.seated id record hrecord himage).1
  have hcontext : ∀ id record, Table.get? id s.engines = some record →
      record.slot.context? = none := by
    intro id record hrecord
    cases hslot : record.slot with
    | unloaded => rfl
    | loaded image context =>
        have himage := hempty id record hrecord
        rw [hslot] at himage
        cases himage
  have hnone : ∀ rest, s.world.host.files.contentAt? (d.place ++ rest) = none := by
    intro rest
    cases hcontent : s.world.host.files.contentAt? (d.place ++ rest) with
    | none => rfl
    | some content =>
        obtain ⟨c, ⟨id, hc⟩, -⟩ :=
          ((h.shelf (by rw [hhome]; simp)).content rest content).mp hcontent
        cases (copyOf?_eq_none_of_context? (hcontext id)).symm.trans hc
  have hfiles : (shared.environment.release.run s.world.host.files).2 = s.world.host.files ∨
      (shared.environment.release.run s.world.host.files).2 =
        s.world.host.files.eraseBelow d.place := by
    obtain ⟨-, -, hdirectory, -⟩ := h.environment _ _ hhome
    rw [Environment.release, FileAction.run_bind, hdirectory]
    cases happly : (FileOp.removeTree d.directory).apply s.world.host.files with
    | error e =>
        rw [FileAction.run_perform_error happly]
        exact Or.inl rfl
    | ok t =>
        rw [FileAction.run_perform_ok happly]
        refine Or.inr ((FileTree.removeTree_ok happly).trans ?_)
        rw [h.workingDirectory]
        rfl
  have hgone : ∀ rest, (shared.environment.release.run s.world.host.files).2.contentAt?
      (d.place ++ rest) = none := by
    intro rest
    rcases hfiles with heq | heq
    · rw [heq, hnone]
    · rw [heq]
      refine FileTree.contentAt?_eq_none_of_node? ?_
      rw [FileTree.node?_eraseBelow_of_ne hd.place_ne_nil, if_pos (List.prefix_append _ _)]
  refine { h with
    workingDirectory := ?_
    environment := fun n found hfound => ?_
    counted := fun found c hfound => ?_
    shelf := fun hthere => ?_
    shut := fun _ => ⟨hcontext, fun rest => ?_⟩ }
  · rcases hfiles with heq | heq
    · exact (congrArg FileTree.workingDirectory heq).trans h.workingDirectory
    · exact (congrArg FileTree.workingDirectory heq).trans h.workingDirectory
  · rw [Table.get?_erase] at hfound
    split at hfound
    · cases hfound
    · exact h.environment n found hfound
  · simp [Table.get?_erase] at hfound
  · simp [Table.get?_erase] at hthere
  · exact hgone rest

end Holdings

end Site

/-- What may happen around a depot: engines are equipped for it, programs are clear of it and keep
their addresses, and units, compilers and the rest of the world do not touch the copies. -/
def SiteEvent.Suits (d : Depot) : SiteEvent τ IsolatedEntry → Prop
  | .order _ _ => True
  | .drop _ => True
  | .addEngine _ _ compiler loader => d.Equips compiler loader
  | .addProgram p => d.Clears p.address
  | .editProgram _ edit => ∀ p, (edit p).address = p.address
  | .startEnvironment _ => False
  | .giveUpEnvironment _ => True
  | .openContext _ address => isAddress address = true
  | .closeContext _ address _ => isAddress address = true
  | .elsewhere change => ∀ w, d.directory.Spared w.host.files (change w).host.files

namespace Site.Holdings

variable {α : Type} {d : Depot} {home id : Nat} {s : Site τ IsolatedEntry}

/-- An engine that is tidy keeps the holdings. -/
theorem withEngine (h : s.Holdings d home) (id : Nat)
    {told : Engine τ IsolatedEntry → Watched τ IsolatedEntry α}
    (htidy : ∀ e st others, d.Serves e → d.Clears st.program.address →
      (told e).TidyAt d others st)
    (haddress : ∀ e st, ((told e).act.run st).2.program.address = st.program.address)
    (hwhole : ∀ moment ∈ s.momentsOf id told,
      moment.2.breaksOff d.directory d.extension = false) :
    ((SiteAct.withEngine id fun e => (told e).act).run s).2.Holdings d home := by
  cases hseat : s.seat? id with
  | none =>
      rw [withEngine_of_no_seat _ hseat]
      exact h
  | some seat =>
      obtain ⟨record, shared, p⟩ := seat
      obtain ⟨-, -, hserves, hclear⟩ := h.seat hseat
      rw [withEngine_of_seat _ hseat]
      rw [momentsOf, hseat] at hwhole
      refine h.work hseat (haddress _ _) ?_
      exact htidy _ _ _ hserves hclear (h.stocked hseat)
        fun moment hmoment => hwhole _ (List.mem_map_of_mem hmoment)

/-- An environment that goes away has nothing to leave behind. -/
theorem releaseUnused (h : s.Holdings d home) (hd : d.Apart) (id : Nat) :
    ((SiteAct.releaseUnused id).run s).2.Holdings d home := by
  rcases releaseUnused_outcomes id s with hrun | ⟨hunused, shared, hshared, hrun⟩
  · rwa [hrun]
  · rw [hrun]
    obtain ⟨rfl, -⟩ := h.environment _ _ hshared
    exact h.release hd hshared fun _ _ hrecord =>
      environment_ne_of_not_isInUse hunused hrecord

theorem giveUpEnvironment (h : s.Holdings d home) (hd : d.Apart) (id : Nat) :
    ((SiteAct.giveUpEnvironment id).run s).2.Holdings d home := by
  cases hfound : Table.get? id s.environments with
  | none =>
      rw [giveUpEnvironment_of_none hfound]
      exact h.releaseUnused hd id
  | some shared =>
      rw [giveUpEnvironment_run hfound]
      obtain ⟨rfl, -⟩ := h.environment _ _ hfound
      exact (h.share hfound { shared with isHeld := false } rfl rfl
        fun _ => le_rfl).releaseUnused hd id

/-- What is done with the registry leaves the copies alone, as long as it goes on counting. -/
theorem withRegistry (h : s.Holdings d home) (hd : d.Apart) {address : String}
    (haddress : isAddress address = true) {act : Registry → FileAction (α × Registry)}
    (htries : ∀ r : Registry, r.claims = some d.claims → (act r).Tries (d.claims.Step address))
    (hclaims : ∀ r t, ((act r).run t).1.2.claims = r.claims)
    (hcounters : ∀ r t other, r.lastGeneration other ≤ ((act r).run t).1.2.lastGeneration other) :
    ((SiteAct.withRegistry id act).run s).2.Holdings d home := by
  cases hfound : Table.get? id s.environments with
  | none =>
      rw [withRegistry_of_none hfound]
      exact h
  | some shared =>
      rw [withRegistry_run hfound]
      obtain ⟨rfl, -, -, hclaimed⟩ := h.environment _ _ hfound
      have hshared := h.share hfound { shared with
        registry := ((act shared.registry).run s.world.host.files).1.2 } rfl
        (hclaims _ _) (hcounters _ _)
      exact hshared.of_world (hd.spared_of_tries h.workingDirectory haddress
        (htries shared.registry hclaimed))

/-- An engine that has been disposed of is not bound. -/
theorem unbound_dispose (h : s.Holdings d home) {record : EngineRecord τ IsolatedEntry}
    (hrecord : Table.get? id ((SiteAct.withEngine id Engine.dispose).run s).2.engines =
      some record) : record.slot.context? = none := by
  cases hseat : s.seat? id with
  | none =>
      rw [withEngine_of_no_seat _ hseat] at hrecord
      cases hhome : Table.get? home s.environments with
      | none => exact (h.shut hhome).1 id record hrecord
      | some shared =>
          -- Whoever has loaded something has a program, and so a seat.
          cases hslot : record.slot with
          | unloaded => rfl
          | loaded image context =>
              obtain ⟨hin, haddress⟩ := h.seated id record hrecord (by rw [hslot]; simp)
              obtain ⟨address, haddress⟩ := Option.ne_none_iff_exists'.mp haddress
              obtain ⟨p, hp, -⟩ := Option.map_eq_some_iff.mp haddress
              have hsome := seat?_eq_some_iff.mpr ⟨hrecord, hin ▸ hhome, hp⟩
              cases hseat.symm.trans hsome
  | some seat =>
      obtain ⟨found, shared, p⟩ := seat
      rw [withEngine_of_seat _ hseat] at hrecord
      simp only [withEngineState, Table.get?_put, ↓reduceIte] at hrecord
      obtain rfl := Option.some.inj hrecord
      exact Option.map_eq_none_iff.mp (Engine.generation?_dispose _ _)

/-- An engine that is given up takes its copy with it. -/
theorem drop (h : s.Holdings d home) (hd : d.Apart) (id : Nat)
    (hwhole : ∀ moment ∈ s.momentsOf id Watched.dispose,
      moment.2.breaksOff d.directory d.extension = false) :
    ((SiteAct.removeEngine id).run s).2.Holdings d home := by
  cases hrecord : Table.get? id s.engines with
  | none =>
      rw [removeEngine_of_none hrecord]
      exact h
  | some record =>
      have hdisposed := h.withEngine id
        (fun e st _ he _ => Watched.tidyAt_dispose hd he st)
        (fun e st => (Watched.orderlyAt_dispose e st).1) hwhole
      simp only [Watched.act_dispose] at hdisposed
      rw [removeEngine_run hrecord]
      exact (hdisposed.removeEngine fun _ hfound => h.unbound_dispose hfound).releaseUnused hd _

/-- Whatever happens around a depot, it has the copies of the engines that are bound. -/
theorem next (h : s.Holdings d home) (hd : d.Apart) {event : SiteEvent τ IsolatedEntry}
    (hsuits : event.Suits d)
    (hwhole : ∀ moment ∈ event.moments s,
      moment.2.breaksOff d.directory d.extension = false) : (event.next s).Holdings d home := by
  cases event with
  | order id order =>
      have hworked := h.withEngine id
        (fun e st _ he hclear => order.tidyAt hd he hclear)
        (fun e st => (order.orderlyAt e st).1) hwhole
      simp only [Order.act_watched] at hworked
      exact hworked
  | drop id => exact h.drop hd id hwhole
  | addEngine environment program compiler loader => exact h.addEngine hsuits rfl
  | addProgram p =>
      refine h.putProgram (Nat.lt_succ_self _) (Nat.le_succ _) hsuits fun address haddress => ?_
      rw [addressOf?, h.programs.get?_eq_none] at haddress
      cases haddress
  | editProgram id edit =>
      rw [SiteEvent.next, SiteEvent.act]
      cases hp : Table.get? id s.programs with
      | none =>
          rw [editProgram_of_none hp]
          exact h
      | some p =>
          have hown := addressOf?_eq hp
          rw [editProgram_run hp]
          refine h.putProgram (h.programs _ _ hp) le_rfl ?_ fun address haddress => ?_
          · exact hsuits p ▸ h.clear id p.address hown
          · exact (hsuits p).trans (Option.some.inj (hown.symm.trans haddress))
  | startEnvironment config => exact hsuits.elim
  | giveUpEnvironment id => exact h.giveUpEnvironment hd id
  | openContext environment address =>
      exact h.withRegistry hd hsuits (fun r hr => r.tries_openContext hr address)
        (fun r t => r.claims_openContext address t)
        fun r t other => r.lastGeneration_le_openContext address other t
  | closeContext environment address generation =>
      change ((SiteAct.withRegistry environment fun r => do
        pure ((), ← r.closeContext address generation)).run s).2.Holdings d home
      refine h.withRegistry hd hsuits
        (fun r hr => (r.tries_closeContext hr address generation).bind fun _ =>
          FileAction.tries_pure _) (fun r t => ?_) fun r t other => ?_
      · rw [FileAction.run_bind]
        exact r.claims_closeContext address generation t
      · rw [FileAction.run_bind]
        exact (r.lastGeneration_closeContext address other generation t).ge
  | elsewhere change => exact h.of_world (hsuits s.world)

/-- So it is after any course of events. -/
theorem after (h : s.Holdings d home) (hd : d.Apart) {events : List (SiteEvent τ IsolatedEntry)}
    (hsuits : ∀ event ∈ events, event.Suits d)
    (hwhole : ∀ moment ∈ s.momentsThrough events,
      moment.2.breaksOff d.directory d.extension = false) : (s.after events).Holdings d home := by
  induction events generalizing s with
  | nil => exact h
  | cons event rest ih =>
      have hfirst := h.next hd (hsuits event List.mem_cons_self) fun moment hmoment =>
        hwhole moment (List.mem_append_left _ hmoment)
      exact ih hfirst (fun other hother => hsuits other (List.mem_cons_of_mem event hother))
        fun moment hmoment => hwhole moment (List.mem_append_right _ hmoment)

end Site.Holdings

end Automation
