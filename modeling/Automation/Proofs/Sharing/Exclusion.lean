import Automation.Proofs.Sharing.Starting

/-
A program runs in one environment at a time.

Every operation leaves all environments in order, so they are in order at all times.  Two of them
cannot both have a live generation of an address then, since its claim names one of them, and a
context can be opened exactly when its claim can be written aside and is absent, our own or that
of an owner that is gone.
-/

namespace Automation.Commons

variable {root : Location} {c c' : Commons} {id : Nat} {address : String} {tenant : Tenant}

/-- What other files are in order as well. -/
theorem inOrder_elsewhere {files : FileTree} (h : InOrder root c.tenants c.files)
    (halone : c.LeavesAlone root files) : InOrder root c.tenants files := by
  refine ⟨?_, ?_, ?_, h.distinct⟩
  · intro name node hnode
    rw [halone.names] at hnode
    exact h.names name node hnode
  · intro name node hnode
    rw [halone.claims] at hnode
    exact h.claims name node hnode
  · intro id tenant htenant
    have hsettled := h.settled id tenant htenant
    refine { hsettled with reaches := halone.reaches id tenant htenant, shared := ?_,
                           present := ?_, held := ?_ }
    · exact (halone.names _).trans hsettled.shared
    · rw [halone.names, hsettled.present]
    · intro address hlive
      obtain ⟨haddress, executable, hnode⟩ := hsettled.held address hlive
      exact ⟨haddress, executable, by rw [halone.claims, hnode]⟩

theorem inOrder_death (h : InOrder root c.tenants c.files) (pid : Nat) :
    InOrder root (c.death pid).tenants (c.death pid).files :=
  h.restrict fun _ _ htenant => (Option.filter_eq_some_iff.mp htenant).1

theorem inOrder_drop (h : InOrder root c.tenants c.files) (id : Nat) :
    InOrder root (c.drop id).tenants (c.drop id).files := by
  rw [drop]
  split
  · exact h
  · next tenant htenant =>
    have hsettled := h.settled id tenant htenant
    have hrest := (h.without id).seenBy tenant.process
    have hremoved : FileAction.Meets (fun t => t = c.files.seenBy tenant.process)
        tenant.environment.release
        fun _ t => InOrder root (Function.update c.tenants id none) t := by
      refine FileAction.Meets.bind (Q := fun _ t =>
        InOrder root (Function.update c.tenants id none) t)
        (FileAction.meets_perform (fun t t' ht hremove => ?_) fun t _ ht _ => ht ▸ hrest)
        fun _ => FileAction.meets_pure fun _ ht => ht
      subst ht
      obtain rfl := FileTree.removeTree_ok hremove
      have hdestination := hsettled.snapshot
      change InOrder root _ (FileTree.eraseBelow _
        (tenant.environment.snapshotDir.destination tenant.process.workingDirectory))
      rw [hdestination]
      refine hrest.eraseBelow hsettled.isOwner.ne_claimsName fun other tenant' hother howner => ?_
      obtain ⟨hne, hother⟩ := InOrder.mem_without hother
      exact hne (h.distinct other id tenant' tenant hother htenant howner)
    exact hremoved.run _ rfl

theorem openContext_of_tenant (htenant : c.tenants id = some tenant) :
    c.openContext id address =
      (some ((tenant.registry.openContext address).run (c.files.seenBy tenant.process)).1.1,
        ⟨((tenant.registry.openContext address).run (c.files.seenBy tenant.process)).2,
          Function.update c.tenants id (some { tenant with registry :=
            ((tenant.registry.openContext address).run
              (c.files.seenBy tenant.process)).1.2 })⟩) := by
  rw [openContext, withRegistry]
  simp only [htenant]

theorem inOrder_openContext (h : InOrder root c.tenants c.files) (id : Nat)
    (haddress : isAddress address = true) :
    InOrder root (c.openContext id address).2.tenants (c.openContext id address).2.files := by
  cases htenant : c.tenants id with
  | none =>
      have hnone : c.openContext id address = (none, c) := by
        rw [openContext, withRegistry]
        simp only [htenant]
      rw [hnone]
      exact h
  | some tenant =>
      have hsettled := h.settled id tenant htenant
      rw [openContext_of_tenant htenant]
      rcases Registry.openContext_run hsettled.claims (h.placed htenant) haddress with
        ⟨⟨hlive, _, hvacant⟩, t', hrun, hgranted⟩ | ⟨_, e, t', hrun, hrefused⟩
      · rw [hrun]
        have hgiven := (h.seenBy tenant.process).granted hsettled.isOwner
          (h.nowhere_of_isVacant htenant hvacant hlive) hgranted
        exact hgiven.opened htenant haddress hgranted.claim
      · rw [hrun]
        have hleft := (h.seenBy tenant.process).refused hrefused
        exact hleft.withRegistry htenant rfl (hleft.settled id tenant htenant).held

theorem closeContext_of_tenant (htenant : c.tenants id = some tenant) (generation : Generation) :
    c.closeContext id address generation =
      ⟨((tenant.registry.closeContext address generation).run
          (c.files.seenBy tenant.process)).2,
        Function.update c.tenants id (some { tenant with registry :=
          ((tenant.registry.closeContext address generation).run
            (c.files.seenBy tenant.process)).1 })⟩ := by
  rw [closeContext, withRegistry]
  simp only [htenant, FileAction.run_bind, FileAction.run_pure]

theorem inOrder_closeContext (h : InOrder root c.tenants c.files) (id : Nat) (address : String)
    (generation : Generation) :
    InOrder root (c.closeContext id address generation).tenants
      (c.closeContext id address generation).files := by
  cases htenant : c.tenants id with
  | none =>
      have hnone : c.closeContext id address generation = c := by
        rw [closeContext, withRegistry]
        simp only [htenant]
      rw [hnone]
      exact h
  | some tenant =>
      have hsettled := h.settled id tenant htenant
      have hseen := h.seenBy tenant.process
      rw [closeContext_of_tenant htenant]
      by_cases haddress : isAddress address = true
      · rcases Registry.closeContext_cases hsettled.claims (h.placed htenant) haddress generation
          with hsame | ⟨hretired, hfiles⟩
        · rw [hsame]
          exact hseen.withRegistry htenant rfl (hseen.settled id tenant htenant).held
        · rw [hretired]
          rcases hfiles with hkept | ⟨hours, herased⟩
          · rw [hkept]
            exact hseen.retired htenant address
          · rw [herased]
            exact (hseen.retired htenant address).erase_claim
              (hseen.nowhere_of_retired htenant hours)
      · have hsame : (tenant.registry.closeContext address generation).run
            (c.files.seenBy tenant.process) =
              (tenant.registry, c.files.seenBy tenant.process) := by
          rw [Registry.closeContext, if_neg]
          · rfl
          · intro hlive
            rw [Registry.isLive_iff] at hlive
            exact haddress (hsettled.held address (by rw [hlive]; exact Option.some_ne_none _)).1
        rw [hsame]
        exact hseen.withRegistry htenant rfl (hseen.settled id tenant htenant).held

/-- One operation leaves all environments in order. -/
theorem Step.inOrder (h : InOrder root c.tenants c.files) (hstep : c.Step root c') :
    InOrder root c'.tenants c'.files := by
  cases hstep with
  | start hfree hstart => exact inOrder_start h hstart
  | drop id => exact inOrder_drop h id
  | death pid => exact inOrder_death h pid
  | openContext id haddress => exact inOrder_openContext h id haddress
  | closeContext id address generation => exact inOrder_closeContext h id address generation
  | elsewhere halone => exact inOrder_elsewhere (c := c) h halone

/-- And so do any number of them. -/
theorem Reachable.inOrder (h : Reachable root c) : InOrder root c.tenants c.files := by
  induction h with
  | empty hempty =>
      refine ⟨?_, ?_, ?_, ?_⟩
      · intro name node hnode
        rw [hempty _ isBelow_child] at hnode
        cases hnode
      · intro name node hnode
        rw [hempty _ isBelow_claimLocation] at hnode
        cases hnode
      · intro id tenant htenant
        cases htenant
      · intro first second a b ha
        cases ha
  | step hreachable hstep ih => exact hstep.inOrder ih

theorem isLive_iff (htenant : c.tenants id = some tenant) :
    c.IsLive id address ↔ tenant.registry.liveGeneration address ≠ none := by
  constructor
  · rintro ⟨other, generation, hother, hlive⟩
    rw [htenant] at hother
    obtain rfl := Option.some.inj hother
    rw [hlive]
    exact Option.some_ne_none _
  · intro hlive
    obtain ⟨generation, hgeneration⟩ := Option.ne_none_iff_exists'.mp hlive
    exact ⟨tenant, generation, htenant, hgeneration⟩

theorem canOpen_iff (h : InOrder root c.tenants c.files) (haddress : isAddress address = true)
    (htenant : c.tenants id = some tenant) :
    c.CanOpen id address ↔ tenant.registry.liveGeneration address = none ∧
      tenant.claims.CanWrite address ∧ tenant.claims.IsVacant root address c.files := by
  rw [CanOpen, openContext_of_tenant htenant]
  rcases Registry.openContext_run (h.settled id tenant htenant).claims (h.placed htenant) haddress
    with ⟨hcan, t', hrun, _⟩ | ⟨hcannot, e, t', hrun, _⟩
  · rw [hrun]
    exact ⟨fun _ => hcan, fun _ => ⟨_, rfl⟩⟩
  · rw [hrun]
    refine ⟨?_, fun hcan => absurd hcan hcannot⟩
    rintro ⟨generation, hopened⟩
    cases hopened

/-- A claim is vacant when it is absent, our own or that of an owner that is gone. -/
theorem isVacant_iff (h : InOrder root c.tenants c.files) (htenant : c.tenants id = some tenant) :
    tenant.claims.IsVacant root address c.files ↔
      c.files.node? (claimLocation root address) = none ∨
        ∃ other, c.files.Names (claimLocation root address) other ∧
          (other = tenant.owner ∨ c.files.node? (root ++ [other]) = none) := by
  constructor
  · intro hvacant
    rcases (h.placed htenant).claim_cases address with hnone | ⟨other, _, hnames⟩
    · exact Or.inl hnone
    · refine Or.inr ⟨other, hnames, ?_⟩
      rcases hvacant other hnames with howner | hgone
      · exact Or.inl howner
      · right
        cases hnode : c.files.node? (root ++ [other]) with
        | none => rfl
        | some node => exact absurd ((h.names other node hnode).1 ▸ hnode) hgone
  · rintro (hnone | ⟨other, hnames, hother⟩) holder hholder
    · obtain ⟨_, hnode⟩ := hholder
      rw [hnone] at hnode
      cases hnode
    · obtain rfl := hnames.unique hholder
      rcases hother with howner | hgone
      · exact Or.inl howner
      · right
        rw [hgone]
        exact (Option.some_ne_none _).symm

/-- At all times at most one environment has a live generation of an address, and the claim of the
address names that one; and a context is opened exactly when the environment has none of its own,
can write a claim that is not too long, and finds no claim, its own or one of an owner whose
directory is gone. -/
theorem contexts_are_exclusive (h : Reachable root c) (address : String) :
    (∀ first second, c.IsLive first address → c.IsLive second address → first = second) ∧
    (∀ id tenant, c.tenants id = some tenant → c.IsLive id address →
      c.files.Names (claimLocation root address) tenant.owner ∧
        ∀ other tenant', c.tenants other = some tenant' → tenant'.owner = tenant.owner →
          other = id) ∧
    (isAddress address = true → ∀ id tenant, c.tenants id = some tenant →
      (c.CanOpen id address ↔
        ¬c.IsLive id address ∧
        FileTree.Fits (tenant.shadowDir.child Environment.claimsName)
          (Claims.pendingName tenant.owner address) ∧
        (c.files.node? (claimLocation root address) = none ∨
          ∃ other, c.files.Names (claimLocation root address) other ∧
            (other = tenant.owner ∨ c.files.node? (root ++ [other]) = none)))) := by
  have hinOrder := h.inOrder
  refine ⟨?_, ?_, ?_⟩
  · rintro first second ⟨a, _, ha, hfirst⟩ ⟨b, _, hb, hsecond⟩
    have hclaim := (hinOrder.settled first a ha).held address (by simp [hfirst])
    exact hinOrder.unique ha hb hclaim.2 (by simp [hsecond])
  · intro id tenant htenant hlive
    rw [isLive_iff htenant] at hlive
    refine ⟨((hinOrder.settled id tenant htenant).held address hlive).2, ?_⟩
    intro other tenant' hother howner
    exact hinOrder.distinct other id tenant' tenant hother htenant howner
  · intro haddress id tenant htenant
    rw [canOpen_iff hinOrder haddress htenant, isVacant_iff hinOrder htenant,
      isLive_iff htenant, not_not]
    exact Iff.rfl

section Lamp

/-- A process that works at the root of the files. -/
def processAtRoot (id : Nat) (hid : id < Environment.pidLimit) : Process :=
  ⟨id, [], hid, fun _ hname => by cases hname⟩

/-- Where the standard configuration has the shadow root. -/
def shadowRoot : Location := ["programs", ".shadow"]

/-- One process has started an environment. -/
def oneStarted : Commons :=
  (⟨.empty, fun _ => none⟩ : Commons).start 0 (processAtRoot 1 (by decide)) .standard [] 0

/-- A second process has started one too, and the first one has opened a context. -/
def lampIsOpen : Commons :=
  ((oneStarted.start 1 (processAtRoot 2 (by decide)) .standard [1] 0).openContext 0 "lamp").2

theorem mem_start {p : Process} {config : EngineConfig} {others : List Nat} {n other : Nat}
    (h : (c.start id p config others n).tenants other = some tenant) :
    (other = id ∧ tenant.process = p) ∨ c.tenants other = some tenant := by
  rw [start] at h
  split at h
  · dsimp only at h
    by_cases heq : other = id
    · rw [heq, Function.update_self] at h
      exact Or.inl ⟨heq, by rw [← Option.some.inj h]⟩
    · rw [Function.update_of_ne heq] at h
      exact Or.inr h
  · exact Or.inr h

theorem canStart_standard {pid : Nat} {hpid : pid < Environment.pidLimit} {others : List Nat}
    (halive : ∀ id tenant, c.tenants id = some tenant →
      (ProcessTable.mk pid others).isAlive tenant.process.id = true) :
    c.CanStart shadowRoot (processAtRoot pid hpid) .standard others := by
  have hshadow : EngineConfig.standard.shadowDir.destination [] = shadowRoot := by decide
  have houtside : StaysOutside shadowRoot [] EngineConfig.standard.shadowDir := by decide
  have hprograms : StaysOutside shadowRoot []
      (EngineConfig.standard.programsDir.child ArtifactStore.stagingName) := by decide
  exact ⟨halive, hshadow, houtside, hprograms⟩

theorem reachable_oneStarted : Reachable shadowRoot oneStarted := by
  have hempty : Reachable shadowRoot ⟨.empty, fun _ => none⟩ := by
    refine .empty ?_
    rintro l ⟨name, rest, rfl⟩
    rfl
  refine .step hempty (.start rfl (canStart_standard ?_))
  intro id tenant htenant
  cases htenant

theorem reachable_lampIsOpen : Reachable shadowRoot lampIsOpen := by
  refine .step (.step reachable_oneStarted (.start ?_ (canStart_standard ?_)))
    (.openContext 0 (by decide))
  · cases htenant : oneStarted.tenants 1 with
    | none => rfl
    | some tenant =>
        rcases mem_start htenant with ⟨hone, _⟩ | hnone
        · cases hone
        · cases hnone
  · intro id tenant htenant
    rcases mem_start htenant with ⟨_, hprocess⟩ | hnone
    · rw [hprocess]
      decide
    · cases hnone

/-- Both environments are there, and the first one has the context. -/
theorem lampIsOpen_tenants :
    (lampIsOpen.tenants 0).map (fun tenant =>
        (tenant.owner, tenant.registry.liveGeneration "lamp")) = some ("1-000000", some 1) ∧
      (lampIsOpen.tenants 1).map (·.owner) = some "2-000000" := by
  decide +kernel

/-- Where one of two environments has opened a context, the other one has to wait. -/
theorem lamp_is_open_in_one_environment :
    Reachable shadowRoot lampIsOpen ∧ lampIsOpen.IsLive 0 "lamp" ∧
      ¬lampIsOpen.IsLive 1 "lamp" ∧
      lampIsOpen.files.Names (claimLocation shadowRoot "lamp") "1-000000" ∧
      ¬lampIsOpen.CanOpen 1 "lamp" := by
  obtain ⟨honly, hnames, hopen⟩ := contexts_are_exclusive reachable_lampIsOpen "lamp"
  obtain ⟨hfirst, hsecond⟩ := lampIsOpen_tenants
  obtain ⟨first, hfirst, hstate⟩ := Option.map_eq_some_iff.mp hfirst
  obtain ⟨second, hsecond, howner⟩ := Option.map_eq_some_iff.mp hsecond
  obtain ⟨hname, hgeneration⟩ := Prod.mk.inj hstate
  have hlive : lampIsOpen.IsLive 0 "lamp" := ⟨first, 1, hfirst, hgeneration⟩
  have hclaim := (hnames 0 first hfirst hlive).1
  refine ⟨reachable_lampIsOpen, hlive, ?_, hname ▸ hclaim, ?_⟩
  · intro hother
    cases honly 0 1 hlive hother
  · intro hcan
    obtain ⟨_, _, hfree⟩ := (hopen (by decide) 1 second hsecond).mp hcan
    rcases hfree with hnone | ⟨other, hother, hgone⟩
    · obtain ⟨_, hnode⟩ := hclaim
      rw [hnone] at hnode
      cases hnode
    · obtain rfl := hclaim.unique hother
      rcases hgone with hsame | hgone
      · rw [hname, howner] at hsame
        exact absurd hsame (by decide)
      · have hpresent := (reachable_lampIsOpen.inOrder.settled 0 first hfirst).present
        rw [hgone] at hpresent
        cases hpresent

/-- The environment has no context, and there are no claims. -/
theorem oneStarted_tenants :
    (oneStarted.tenants 0).map (·.registry.slots) = some [] ∧
      oneStarted.files.entries.all (fun entry => decide (entry.1.length ≤ 3)) = true := by
  decide +kernel

/-- Without the condition on the length of the claim a context could not be opened: no generation
of the address is live and nobody claims it. -/
theorem long_address_is_refused :
    Reachable shadowRoot oneStarted ∧ isAddress longAddress = true ∧
      ∃ tenant, oneStarted.tenants 0 = some tenant ∧
        ¬(oneStarted.CanOpen 0 longAddress ↔
          ¬oneStarted.IsLive 0 longAddress ∧
          (oneStarted.files.node? (claimLocation shadowRoot longAddress) = none ∨
            ∃ other, oneStarted.files.Names (claimLocation shadowRoot longAddress) other ∧
              (other = tenant.owner ∨
                oneStarted.files.node? (shadowRoot ++ [other]) = none))) := by
  have hinOrder := reachable_oneStarted.inOrder
  obtain ⟨htenant, hentries⟩ := oneStarted_tenants
  obtain ⟨tenant, htenant, hslots⟩ := Option.map_eq_some_iff.mp htenant
  have hidle : tenant.registry.liveGeneration longAddress = none := by
    rw [Registry.liveGeneration, Registry.slot, hslots]
    rfl
  have hunclaimed : oneStarted.files.node? (claimLocation shadowRoot longAddress) = none := by
    cases hnode : oneStarted.files.node? (claimLocation shadowRoot longAddress) with
    | none => rfl
    | some node =>
        rw [FileTree.node?, if_neg claimLocation_ne_nil] at hnode
        have hlength := List.all_eq_true.mp hentries _ (Table.mem_of_get? hnode)
        simp [claimLocation, claimsLocation, shadowRoot] at hlength
  refine ⟨reachable_oneStarted, isAddress_longAddress, tenant, htenant, fun hiff => ?_⟩
  have hnotLive : ¬oneStarted.IsLive 0 longAddress := by
    rw [isLive_iff htenant, hidle]
    intro hne
    exact hne rfl
  have hcan := hiff.mpr ⟨hnotLive, Or.inl hunclaimed⟩
  rw [canOpen_iff hinOrder isAddress_longAddress htenant] at hcan
  have hname := hcan.2.1.1
  have hsize := (hinOrder.settled 0 tenant htenant).isOwner.size
  have hlong : longAddress.utf8ByteSize = 250 := by
    rw [utf8ByteSize_of_isAddress isAddress_longAddress, ← String.length_toList,
      toList_longAddress, List.length_replicate]
  rw [Claims.size_pendingName, hlong] at hname
  change tenant.owner.utf8ByteSize + 250 + 2 ≤ 255 at hname
  omega

end Lamp

end Automation.Commons
