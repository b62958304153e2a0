import Automation.Proofs.Sharing.Commons

/-
What holds while environments share a shadow root.

An environment is settled when it can reach the root, has its directory there and has a claim for
every live generation.  All are in order when every environment is settled, no two have one name,
and below the root there is nothing but directories of owners and claims that name owners.
-/

namespace Automation

section Locations

variable {root : Location} {name : String}

theorem isBelow_child : IsBelow root (root ++ [name]) := ⟨name, [], rfl⟩

theorem isBelow_claimLocation : IsBelow root (claimLocation root name) :=
  ⟨Environment.claimsName, [name], by simp [claimLocation, claimsLocation]⟩

theorem child_inj {other : String} : root ++ [name] = root ++ [other] ↔ name = other := by
  simp

theorem child_isPrefix_child {other : String} : root ++ [name] <+: root ++ [other] ↔
    name = other := by
  simp [List.prefix_append_right_inj, List.cons_prefix_cons]

theorem child_isPrefix_claimLocation {other : String} :
    root ++ [name] <+: claimLocation root other ↔ name = Environment.claimsName := by
  rw [claimLocation, claimsLocation, List.append_assoc, List.prefix_append_right_inj]
  simp

theorem not_child_isPrefix {l : Location} (hl : ¬IsBelow root l) : ¬root ++ [name] <+: l := by
  rintro ⟨rest, rfl⟩
  exact hl ⟨name, rest, by simp⟩

end Locations

/-- An environment has its directory and its claims below the shadow root. -/
structure Settled (root : Location) (t : FileTree) (tenant : Tenant) : Prop where
  claims : tenant.registry.claims = some tenant.claims
  owned : Environment.IsOwnerOf tenant.process.id tenant.owner
  outside : StaysOutside root tenant.process.workingDirectory tenant.shadowDir
  snapshot : tenant.environment.snapshotDir.destination tenant.process.workingDirectory =
    root ++ [tenant.owner]
  reaches : (t.seenBy tenant.process).Reaches tenant.shadowDir root
  shared : t.node? (claimsLocation root) = some .directory
  present : t.node? (root ++ [tenant.owner]) = some .directory
  held : ∀ address, tenant.registry.liveGeneration address ≠ none →
    isAddress address = true ∧ t.Names (claimLocation root address) tenant.owner

/-- All environments are settled, and there is nothing else below the shadow root. -/
structure InOrder (root : Location) (tenants : Nat → Option Tenant) (t : FileTree) : Prop where
  names : ∀ name node, t.node? (root ++ [name]) = some node →
    node = .directory ∧ (name = Environment.claimsName ∨ Environment.IsOwner name)
  claims : ∀ name node, t.node? (claimLocation root name) = some node → node.IsClaim
  settled : ∀ id tenant, tenants id = some tenant → Settled root t tenant
  distinct : ∀ first second a b, tenants first = some a → tenants second = some b →
    a.owner = b.owner → first = second

namespace Settled

variable {root : Location} {t t' : FileTree} {tenant : Tenant}

theorem isOwner (h : Settled root t tenant) : Environment.IsOwner tenant.owner :=
  ⟨tenant.process.id, tenant.process.isNumber, h.owned⟩

/-- An environment stays settled while the directories outside the root stay, and below it the
directories and claims that it needs. -/
theorem mono (h : Settled root t tenant)
    (hway : ∀ l, ¬IsBelow root l → t.node? l = some .directory → t'.node? l = some .directory)
    (hshared : t'.node? (claimsLocation root) = some .directory)
    (hpresent : t'.node? (root ++ [tenant.owner]) = some .directory)
    (hheld : ∀ address, tenant.registry.liveGeneration address ≠ none →
      t'.Names (claimLocation root address) tenant.owner) : Settled root t' tenant where
  claims := h.claims
  owned := h.owned
  outside := h.outside
  snapshot := h.snapshot
  reaches := h.reaches.mono rfl fun before hbefore => hway _ (h.outside before hbefore)
  shared := hshared
  present := hpresent
  held address hlive := ⟨(h.held address hlive).1, hheld address hlive⟩

theorem placed (h : Settled root t tenant)
    (hclaims : ∀ name node, t.node? (claimLocation root name) = some node → node.IsClaim) :
    tenant.claims.Placed root (t.seenBy tenant.process) :=
  ⟨rfl, h.isOwner, h.reaches, h.shared, hclaims⟩

end Settled

namespace InOrder

variable {root : Location} {tenants tenants' : Nat → Option Tenant} {t t' : FileTree}
  {tenant : Tenant} {id : Nat} {name : String}

theorem placed (h : InOrder root tenants t) (htenant : tenants id = some tenant) :
    tenant.claims.Placed root (t.seenBy tenant.process) :=
  (h.settled id tenant htenant).placed h.claims

/-- Without some of the environments all is still in order. -/
theorem restrict (h : InOrder root tenants t)
    (hfewer : ∀ id tenant, tenants' id = some tenant → tenants id = some tenant) :
    InOrder root tenants' t where
  names := h.names
  claims := h.claims
  settled id tenant htenant := h.settled id tenant (hfewer id tenant htenant)
  distinct first second a b ha hb :=
    h.distinct first second a b (hfewer first a ha) (hfewer second b hb)

theorem mem_without {other : Nat} (h : Function.update tenants id none other = some tenant) :
    other ≠ id ∧ tenants other = some tenant := by
  by_cases heq : other = id
  · rw [heq, Function.update_self] at h
    cases h
  · rw [Function.update_of_ne heq] at h
    exact ⟨heq, h⟩

theorem without (h : InOrder root tenants t) (id : Nat) :
    InOrder root (Function.update tenants id none) t :=
  h.restrict fun _ _ hother => (mem_without hother).2

/-- One more environment, with a name that no other has. -/
theorem insert (id : Nat) (h : InOrder root tenants t) (hsettled : Settled root t tenant)
    (hnew : ∀ other tenant', tenants other = some tenant' → tenant'.owner ≠ tenant.owner) :
    InOrder root (Function.update tenants id (some tenant)) t where
  names := h.names
  claims := h.claims
  settled other tenant' htenant := by
    by_cases heq : other = id
    · subst heq
      rw [Function.update_self] at htenant
      obtain rfl := Option.some.inj htenant
      exact hsettled
    · rw [Function.update_of_ne heq] at htenant
      exact h.settled other tenant' htenant
  distinct first second a b ha hb howner := by
    by_cases hfirst : first = id
    · by_cases hsecond : second = id
      · rw [hfirst, hsecond]
      · rw [hfirst, Function.update_self] at ha
        rw [Function.update_of_ne hsecond] at hb
        obtain rfl := Option.some.inj ha
        exact absurd howner.symm (hnew second b hb)
    · rw [Function.update_of_ne hfirst] at ha
      by_cases hsecond : second = id
      · rw [hsecond, Function.update_self] at hb
        obtain rfl := Option.some.inj hb
        exact absurd howner (hnew first a ha)
      · rw [Function.update_of_ne hsecond] at hb
        exact h.distinct first second a b ha hb howner

/-- A directory may be made outside the shadow root, and that of the claims in it. -/
theorem put_directory (h : InOrder root tenants t) {l : Location} (hfree : t.node? l = none)
    (hl : ¬IsBelow root l ∨ l = claimsLocation root ∨
      ∃ owner, Environment.IsOwner owner ∧ l = root ++ [owner]) :
    InOrder root tenants (t.put l .directory) := by
  have hne : l ≠ [] := by
    rintro rfl
    simp at hfree
  have hput : ∀ other, (t.put l .directory).node? other =
      if other = l then some .directory else t.node? other :=
    fun other => FileTree.node?_put_of_ne hne _
  have hkept : ∀ other, t.node? other ≠ none →
      (t.put l .directory).node? other = t.node? other := by
    intro other hother
    rw [hput, if_neg]
    rintro rfl
    exact hother hfree
  have hclaim : ∀ name, (t.put l .directory).node? (claimLocation root name) =
      t.node? (claimLocation root name) := by
    intro name
    rw [hput, if_neg]
    rintro rfl
    rcases hl with houtside | hclaims | ⟨owner, _, howner⟩
    · exact houtside isBelow_claimLocation
    · exact child_ne_claimLocation hclaims.symm
    · exact child_ne_claimLocation howner.symm
  refine ⟨?_, ?_, ?_, h.distinct⟩
  · intro name node hnode
    rw [hput] at hnode
    split at hnode
    · next heq =>
      subst heq
      refine ⟨(Option.some.inj hnode).symm, ?_⟩
      rcases hl with houtside | hclaims | ⟨owner, howner, hchild⟩
      · exact absurd isBelow_child houtside
      · exact Or.inl (child_inj.mp hclaims)
      · exact Or.inr (child_inj.mp hchild ▸ howner)
    · exact h.names name node hnode
  · intro name node hnode
    rw [hclaim] at hnode
    exact h.claims name node hnode
  · intro id tenant htenant
    have hsettled := h.settled id tenant htenant
    refine hsettled.mono ?_ ?_ ?_ ?_
    · intro other _ hdirectory
      rw [hkept other (by simp [hdirectory]), hdirectory]
    · rw [hkept _ (by simp [hsettled.shared]), hsettled.shared]
    · rw [hkept _ (by simp [hsettled.present]), hsettled.present]
    · intro address hlive
      obtain ⟨executable, hnode⟩ := (hsettled.held address hlive).2
      exact ⟨executable, by rw [hclaim, hnode]⟩

/-- A directory that is not of an environment may be removed with all in it. -/
theorem eraseBelow (h : InOrder root tenants t) (hclaims : name ≠ Environment.claimsName)
    (hnobody : ∀ id tenant, tenants id = some tenant → tenant.owner ≠ name) :
    InOrder root tenants (t.eraseBelow (root ++ [name])) := by
  have herase : ∀ other, (t.eraseBelow (root ++ [name])).node? other =
      if root ++ [name] <+: other then none else t.node? other :=
    fun other => FileTree.node?_eraseBelow_of_ne (by simp)
  have hclaim : ∀ other, (t.eraseBelow (root ++ [name])).node? (claimLocation root other) =
      t.node? (claimLocation root other) := by
    intro other
    rw [herase, if_neg]
    intro hbelow
    apply hclaims
    exact child_isPrefix_claimLocation.mp hbelow
  refine ⟨?_, ?_, ?_, h.distinct⟩
  · intro other node hnode
    rw [herase] at hnode
    split at hnode
    · cases hnode
    · exact h.names other node hnode
  · intro other node hnode
    rw [hclaim] at hnode
    exact h.claims other node hnode
  · intro id tenant htenant
    have hsettled := h.settled id tenant htenant
    refine hsettled.mono ?_ ?_ ?_ ?_
    · intro other houtside hdirectory
      rw [herase, if_neg (not_child_isPrefix houtside), hdirectory]
    · rw [herase, if_neg, hsettled.shared]
      intro hbelow
      apply hclaims
      exact child_isPrefix_child.mp hbelow
    · rw [herase, if_neg, hsettled.present]
      intro hbelow
      apply hnobody id tenant htenant
      exact (child_isPrefix_child.mp hbelow).symm
    · intro address hlive
      obtain ⟨executable, hnode⟩ := (hsettled.held address hlive).2
      exact ⟨executable, by rw [hclaim, hnode]⟩

theorem seenBy (h : InOrder root tenants t) (p : Process) : InOrder root tenants (t.seenBy p) where
  names := h.names
  claims := h.claims
  settled id tenant htenant := by
    have hsettled := h.settled id tenant htenant
    exact hsettled.mono (fun _ _ hdirectory => hdirectory) hsettled.shared hsettled.present
      fun address hlive => (hsettled.held address hlive).2
  distinct := h.distinct

/-- Only claims have changed, and those that are needed are there. -/
theorem of_claims (h : InOrder root tenants t)
    (hrest : ∀ l, (∀ name, l ≠ claimLocation root name) → t'.node? l = t.node? l)
    (hclaims : ∀ name node, t'.node? (claimLocation root name) = some node → node.IsClaim)
    (hheld : ∀ id tenant, tenants id = some tenant → ∀ address,
      tenant.registry.liveGeneration address ≠ none →
        t'.Names (claimLocation root address) tenant.owner) : InOrder root tenants t' := by
  have hchild : ∀ name, t'.node? (root ++ [name]) = t.node? (root ++ [name]) :=
    fun name => hrest _ fun _ => child_ne_claimLocation
  refine ⟨?_, hclaims, ?_, h.distinct⟩
  · intro name node hnode
    rw [hchild] at hnode
    exact h.names name node hnode
  · intro id tenant htenant
    have hsettled := h.settled id tenant htenant
    refine hsettled.mono ?_ ?_ ?_ (hheld id tenant htenant)
    · intro l houtside hdirectory
      rw [hrest l, hdirectory]
      rintro name rfl
      exact houtside isBelow_claimLocation
    · exact (hchild _).trans hsettled.shared
    · exact (hchild _).trans hsettled.present

/-- What an environment that was refused a claim leaves is in order. -/
theorem refused (h : InOrder root tenants t) {owner address : String}
    (hrefused : Claims.Refused root owner address t t') : InOrder root tenants t' := by
  have hclaim : ∀ name, t'.node? (claimLocation root name) = none ∨
      t'.node? (claimLocation root name) = t.node? (claimLocation root name) := by
    intro name
    by_cases hpending : name = Claims.pendingName owner address
    · rw [hpending]
      exact hrefused.pending.symm
    · exact Or.inr (hrefused.rest _ (claimLocation_ne hpending))
  refine h.of_claims (fun l hl => hrefused.rest l (hl _)) ?_ ?_
  · intro name node hnode
    rcases hclaim name with hnone | hsame
    · rw [hnone] at hnode
      cases hnode
    · rw [hsame] at hnode
      exact h.claims name node hnode
  · intro id tenant htenant held hlive
    obtain ⟨haddress, executable, hnode⟩ := (h.settled id tenant htenant).held held hlive
    refine ⟨executable, ?_⟩
    rw [hrefused.rest, hnode]
    apply claimLocation_ne
    exact (Claims.pendingName_ne haddress _ _).symm

/-- So is what one leaves that got the claim of an address which is live nowhere. -/
theorem granted (h : InOrder root tenants t) {owner address : String}
    (howner : Environment.IsOwner owner)
    (hnowhere : ∀ id tenant, tenants id = some tenant →
      tenant.registry.liveGeneration address = none)
    (hgranted : Claims.Granted root owner address t t') : InOrder root tenants t' := by
  refine h.of_claims (fun l hl => hgranted.rest l (hl _) (hl _)) ?_ ?_
  · intro name node hnode
    by_cases haddress : name = address
    · obtain ⟨executable, hclaim⟩ := hgranted.claim
      rw [haddress, hclaim] at hnode
      exact ⟨owner, executable, howner, (Option.some.inj hnode).symm⟩
    · by_cases hpending : name = Claims.pendingName owner address
      · rw [hpending, hgranted.pending] at hnode
        cases hnode
      · rw [hgranted.rest _ (claimLocation_ne haddress) (claimLocation_ne hpending)] at hnode
        exact h.claims name node hnode
  · intro id tenant htenant held hlive
    obtain ⟨hheld, executable, hnode⟩ := (h.settled id tenant htenant).held held hlive
    refine ⟨executable, ?_⟩
    rw [hgranted.rest, hnode]
    · apply claimLocation_ne
      rintro rfl
      exact hlive (hnowhere id tenant htenant)
    · apply claimLocation_ne
      exact (Claims.pendingName_ne hheld _ _).symm

/-- The claim of an address that is live nowhere may be removed. -/
theorem erase_claim (h : InOrder root tenants t) {address : String}
    (hnowhere : ∀ id tenant, tenants id = some tenant →
      tenant.registry.liveGeneration address = none) :
    InOrder root tenants (t.erase (claimLocation root address)) := by
  have herase : ∀ l, (t.erase (claimLocation root address)).node? l =
      if l = claimLocation root address then none else t.node? l :=
    fun l => FileTree.node?_erase_of_ne claimLocation_ne_nil
  refine h.of_claims ?_ ?_ ?_
  · intro l hl
    rw [herase, if_neg (hl address)]
  · intro name node hnode
    rw [herase] at hnode
    split at hnode
    · cases hnode
    · exact h.claims name node hnode
  · intro id tenant htenant held hlive
    obtain ⟨_, executable, hnode⟩ := (h.settled id tenant htenant).held held hlive
    refine ⟨executable, ?_⟩
    rw [herase, if_neg, hnode]
    apply claimLocation_ne
    rintro rfl
    exact hlive (hnowhere id tenant htenant)

/-- An environment goes on with a registry whose live generations have their claims. -/
theorem withRegistry (h : InOrder root tenants t) (htenant : tenants id = some tenant)
    {registry : Registry} (hclaims : registry.claims = tenant.registry.claims)
    (hheld : ∀ address, registry.liveGeneration address ≠ none →
      isAddress address = true ∧ t.Names (claimLocation root address) tenant.owner) :
    InOrder root
      (Function.update tenants id (some { tenant with registry := registry })) t := by
  have hsettled := h.settled id tenant htenant
  have hself : Settled root t { tenant with registry := registry } :=
    { hsettled with claims := hclaims.trans hsettled.claims, held := hheld }
  have hinsert := (h.without id).insert id hself ?_
  · rwa [Function.update_idem] at hinsert
  · intro other tenant' hother howner
    obtain ⟨hne, hother⟩ := mem_without hother
    exact hne (h.distinct other id tenant' tenant hother htenant howner)

/-- A context may be opened when its claim is there. -/
theorem opened (h : InOrder root tenants t) (htenant : tenants id = some tenant)
    {address : String} (haddress : isAddress address = true)
    (hclaim : t.Names (claimLocation root address) tenant.owner) :
    InOrder root (Function.update tenants id
      (some { tenant with registry := tenant.registry.opened address })) t := by
  refine h.withRegistry htenant rfl fun other hother => ?_
  rw [Registry.liveGeneration_opened] at hother
  split at hother
  · next heq =>
    subst heq
    exact ⟨haddress, hclaim⟩
  · exact (h.settled id tenant htenant).held other hother

theorem retired (h : InOrder root tenants t) (htenant : tenants id = some tenant)
    (address : String) :
    InOrder root (Function.update tenants id
      (some { tenant with registry := tenant.registry.retired address })) t := by
  refine h.withRegistry htenant rfl fun other hother => ?_
  rw [Registry.liveGeneration_retired] at hother
  split at hother
  · exact absurd rfl hother
  · exact (h.settled id tenant htenant).held other hother

/-- Two environments with claims of one address are one. -/
theorem unique (h : InOrder root tenants t) {first second : Nat} {a b : Tenant} {address : String}
    (ha : tenants first = some a) (hb : tenants second = some b)
    (hclaim : t.Names (claimLocation root address) a.owner)
    (hlive : b.registry.liveGeneration address ≠ none) : first = second :=
  h.distinct first second a b ha hb
    (hclaim.unique ((h.settled second b hb).held address hlive).2)

/-- When the environment that a claim names has retired the generation, none is live. -/
theorem nowhere_of_retired (h : InOrder root tenants t) (htenant : tenants id = some tenant)
    {address : String} (hclaim : t.Names (claimLocation root address) tenant.owner)
    (other : Nat) (tenant' : Tenant)
    (hother : Function.update tenants id
      (some { tenant with registry := tenant.registry.retired address }) other = some tenant') :
    tenant'.registry.liveGeneration address = none := by
  by_cases heq : other = id
  · rw [heq, Function.update_self] at hother
    obtain rfl := Option.some.inj hother
    rw [Registry.liveGeneration_retired, if_pos rfl]
  · rw [Function.update_of_ne heq] at hother
    by_contra hlive
    exact heq (h.unique htenant hother hclaim hlive).symm

/-- A claim that may be taken belongs to no live generation of another environment. -/
theorem nowhere_of_isVacant (h : InOrder root tenants t) (htenant : tenants id = some tenant)
    {address : String} (hvacant : tenant.claims.IsVacant root address t)
    (hself : tenant.registry.liveGeneration address = none) (other : Nat) (tenant' : Tenant)
    (hother : tenants other = some tenant') :
    tenant'.registry.liveGeneration address = none := by
  by_contra hlive
  have hsettled := h.settled other tenant' hother
  have hclaim := (hsettled.held address hlive).2
  rcases hvacant tenant'.owner hclaim with howner | hgone
  · have heq := h.distinct other id tenant' tenant hother htenant howner
    subst heq
    rw [hother] at htenant
    obtain rfl := Option.some.inj htenant
    exact hlive hself
  · exact hgone hsettled.present

end InOrder

end Automation
