import Automation.Proofs.Sharing.Claiming

/-
What becomes of a claim.

The claims of a shadow root are files that name their owners.  An owner gets the claim of an
address when its pending claim can be written and the claim names nobody else who is still there;
otherwise nothing but the pending claim has changed.  Giving a claim up removes it if it is ours.
-/

namespace Automation

/-- The directory of the claims below a shadow root. -/
def claimsLocation (root : Location) : Location := root ++ [Environment.claimsName]

/-- Where the claim of that name is. -/
def claimLocation (root : Location) (name : String) : Location := claimsLocation root ++ [name]

section Locations

variable {root : Location} {name other : String}

theorem claimLocation_ne_nil : claimLocation root name ≠ [] := by
  simp [claimLocation]

theorem claimLocation_inj : claimLocation root name = claimLocation root other ↔ name = other := by
  simp [claimLocation]

theorem claimLocation_ne (h : name ≠ other) : claimLocation root name ≠ claimLocation root other := by
  intro heq
  apply h
  exact claimLocation_inj.mp heq

theorem child_ne_claimLocation : root ++ [other] ≠ claimLocation root name := by
  intro h
  have hlength := congrArg List.length h
  simp [claimLocation, claimsLocation] at hlength

end Locations

/-- A file that holds the name of some owner and nothing else. -/
def Node.IsClaim (node : Node) : Prop :=
  ∃ owner executable, Environment.IsOwner owner ∧ node = .file owner.toUTF8 executable

/-- What is at a location is a file with the name of an owner and nothing else. -/
def FileTree.Names (t : FileTree) (l : Location) (owner : String) : Prop :=
  ∃ executable, t.node? l = some (.file owner.toUTF8 executable)

theorem FileTree.Names.unique {t : FileTree} {l : Location} {first second : String}
    (hfirst : t.Names l first) (hsecond : t.Names l second) : first = second := by
  obtain ⟨_, hfirst⟩ := hfirst
  obtain ⟨_, hsecond⟩ := hsecond
  rw [hfirst] at hsecond
  obtain ⟨hbytes, _⟩ := Node.file.inj (Option.some.inj hsecond)
  exact String.toByteArray_inj.mp hbytes

namespace Claims

/-- The claims of an owner are at work below a shadow root: the root can be reached, and every
claim names an owner. -/
structure Placed (c : Claims) (root : Location) (t : FileTree) : Prop where
  directory : c.directory = c.ownersRoot.child Environment.claimsName
  owner : Environment.IsOwner c.owner
  reaches : t.Reaches c.ownersRoot root
  shared : t.node? (claimsLocation root) = some .directory
  claims : ∀ name node, t.node? (claimLocation root name) = some node → node.IsClaim

/-- The claim of an address names nobody else who is still there. -/
def IsVacant (c : Claims) (root : Location) (address : String) (t : FileTree) : Prop :=
  ∀ other, t.Names (claimLocation root address) other →
    other = c.owner ∨ t.node? (root ++ [other]) ≠ some .directory

/-- The claim of an address can be written aside. -/
def CanWrite (c : Claims) (address : String) : Prop :=
  FileTree.Fits c.directory (pendingName c.owner address)

variable {c : Claims} {root : Location} {t : FileTree} {address name owner : String}

theorem isVacant_congr {t' : FileTree}
    (hclaim : t'.node? (claimLocation root address) = t.node? (claimLocation root address))
    (howners : ∀ other, t'.node? (root ++ [other]) = t.node? (root ++ [other])) :
    c.IsVacant root address t' ↔ c.IsVacant root address t := by
  simp only [IsVacant, FileTree.Names, hclaim, howners]

theorem Placed.claim_cases (h : c.Placed root t) (name : String) :
    t.node? (claimLocation root name) = none ∨
      ∃ owner, Environment.IsOwner owner ∧ t.Names (claimLocation root name) owner := by
  cases hnode : t.node? (claimLocation root name) with
  | none => exact Or.inl rfl
  | some node =>
      obtain ⟨owner, executable, howner, rfl⟩ := h.claims name node hnode
      exact Or.inr ⟨owner, howner, executable, hnode⟩

theorem Placed.ne_directory (h : c.Placed root t) (name : String) :
    t.node? (claimLocation root name) ≠ some .directory := by
  intro hdirectory
  obtain ⟨_, _, _, hnode⟩ := h.claims name _ hdirectory
  cases hnode

theorem Placed.reaches_directory (h : c.Placed root t) :
    t.Reaches c.directory (claimsLocation root) := by
  rw [h.directory]
  exact h.reaches.child isName_claimsName (by decide) h.shared

theorem Placed.situated (h : c.Placed root t) (haddress : isAddress address = true) :
    c.Situated (claimsLocation root) address t :=
  ⟨h.owner.isAddress, haddress, h.reaches_directory⟩

theorem Placed.put (h : c.Placed root t) (howner : Environment.IsOwner owner)
    (executable : Bool) :
    c.Placed root (t.put (claimLocation root name) (.file owner.toUTF8 executable)) := by
  refine ⟨h.directory, h.owner, ?_, ?_, ?_⟩
  · exact h.reaches.put claimLocation_ne_nil fun hnode => absurd hnode (h.ne_directory name)
  · rw [FileTree.node?_put_of_ne claimLocation_ne_nil, if_neg]
    · exact h.shared
    · exact child_ne_claimLocation
  · intro other node hnode
    rw [FileTree.node?_put_of_ne claimLocation_ne_nil] at hnode
    split at hnode
    · exact ⟨owner, executable, howner, (Option.some.inj hnode).symm⟩
    · exact h.claims other node hnode

theorem Placed.erase (h : c.Placed root t) (name : String) :
    c.Placed root (t.erase (claimLocation root name)) := by
  refine ⟨h.directory, h.owner, ?_, ?_, ?_⟩
  · exact h.reaches.erase claimLocation_ne_nil (h.ne_directory name)
  · rw [FileTree.node?_erase_of_ne claimLocation_ne_nil, if_neg]
    · exact h.shared
    · exact child_ne_claimLocation
  · intro other node hnode
    rw [FileTree.node?_erase_of_ne claimLocation_ne_nil] at hnode
    split at hnode
    · cases hnode
    · exact h.claims other node hnode

theorem Placed.isName_pendingName (h : c.Placed root t) (haddress : isAddress address = true) :
    IsName (pendingName c.owner address) :=
  Claims.isName_pendingName h.owner.isAddress haddress

/-- Where a pending claim fits, the directory of any owner does. -/
theorem CanWrite.fits_owner (h : c.CanWrite address) (hplaced : c.Placed root t)
    (haddress : isAddress address = true) {other : String} (hother : Environment.IsOwner other) :
    FileTree.Fits c.ownersRoot other := by
  obtain ⟨_, hpath⟩ := h
  have hadded := size_pendingName c.owner address
  have hbelow := Path.sizeBelow_child isName_claimsName c.ownersRoot
  have hclaims : Environment.claimsName.utf8ByteSize = 7 := rfl
  have howner := hplaced.owner.size
  have hsize := hother.size
  rw [Path.size_child (hplaced.isName_pendingName haddress), hplaced.directory, hbelow] at hpath
  refine ⟨Nat.le_trans hsize.2 (by decide), ?_⟩
  rw [Path.size_child hother.isName]
  omega

theorem Placed.isForeign_iff (h : c.Placed root t) (hwrite : c.CanWrite address)
    (haddress : isAddress address = true) {other : String} (hother : Environment.IsOwner other) :
    c.isForeign other t = true ↔
      other ≠ c.owner ∧ t.node? (root ++ [other]) = some .directory := by
  have hne : other.isEmpty = false := by
    simpa [String.isEmpty_iff] using hother.isName.ne_empty
  have hthere : t.isDirectory (c.ownersRoot.child other) = true ↔
      t.node? (root ++ [other]) = some .directory := by
    have hreaches := h.reaches
    rw [FileTree.isDirectory_child_iff hother.isName, hreaches.destination]
    constructor
    · rintro ⟨_, _, hnode⟩
      exact hnode
    · intro hnode
      exact ⟨hreaches, hwrite.fits_owner h haddress hother, hnode⟩
  rw [← hthere, isForeign, hne]
  simp [Path.child]

/-- What an owner that gets a claim leaves: its name in the claim, and no pending claim. -/
structure Granted (root : Location) (owner address : String) (t t' : FileTree) : Prop where
  workingDirectory : t'.workingDirectory = t.workingDirectory
  claim : t'.Names (claimLocation root address) owner
  pending : t'.node? (claimLocation root (pendingName owner address)) = none
  rest : ∀ l, l ≠ claimLocation root address →
    l ≠ claimLocation root (pendingName owner address) → t'.node? l = t.node? l

/-- What an owner that is refused a claim leaves: all as it was, or without its pending claim. -/
structure Refused (root : Location) (owner address : String) (t t' : FileTree) : Prop where
  workingDirectory : t'.workingDirectory = t.workingDirectory
  pending : t'.node? (claimLocation root (pendingName owner address)) =
      t.node? (claimLocation root (pendingName owner address)) ∨
    t'.node? (claimLocation root (pendingName owner address)) = none
  rest : ∀ l, l ≠ claimLocation root (pendingName owner address) → t'.node? l = t.node? l

/-- What writing a pending claim leaves. -/
structure Written (c : Claims) (root : Location) (address : String) (t t' : FileTree) : Prop where
  workingDirectory : t'.workingDirectory = t.workingDirectory
  placed : c.Placed root t'
  pending : t'.Names (claimLocation root (pendingName c.owner address)) c.owner
  rest : ∀ l, l ≠ claimLocation root (pendingName c.owner address) → t'.node? l = t.node? l

/-- What giving a pending claim its name leaves. -/
structure Linked (c : Claims) (root : Location) (address : String) (t t' : FileTree) : Prop where
  workingDirectory : t'.workingDirectory = t.workingDirectory
  placed : c.Placed root t'
  claim : t'.Names (claimLocation root address) c.owner
  rest : ∀ l, l ≠ claimLocation root address → t'.node? l = t.node? l

theorem pending_ne_claim (haddress : isAddress address = true) :
    claimLocation root (pendingName owner address) ≠ claimLocation root address :=
  claimLocation_ne (pendingName_ne haddress owner address)

theorem write_pending (h : c.Placed root t) (hwrite : c.CanWrite address)
    (haddress : isAddress address = true) :
    ∃ t', (FileOp.write (c.pendingPath address) c.owner.toUTF8).apply t = .ok t' ∧
      c.Written root address t t' := by
  obtain ⟨executable, hput, -⟩ :=
    (h.situated haddress).exists_pending ⟨hwrite, h.ne_directory _⟩
  refine ⟨_, hput, rfl, h.put h.owner executable, ?_, ?_⟩
  · exact ⟨executable, (FileTree.node?_put_of_ne claimLocation_ne_nil _).trans (if_pos rfl)⟩
  · exact fun l hl => (FileTree.node?_put_of_ne claimLocation_ne_nil _).trans (if_neg hl)

section Link

variable {executable : Bool} {other : String}

theorem Placed.linked (h : c.Placed root t) (executable : Bool) :
    c.Linked root address t
      (t.put (claimLocation root address) (.file c.owner.toUTF8 executable)) := by
  refine ⟨rfl, h.put h.owner executable, ?_, ?_⟩
  · exact ⟨executable, by rw [FileTree.node?_put_of_ne claimLocation_ne_nil, if_pos rfl]⟩
  · intro l hl
    rw [FileTree.node?_put_of_ne claimLocation_ne_nil, if_neg hl]

/-- A claim may be removed before it is linked. -/
theorem Linked.of_erase {t' : FileTree}
    (h : c.Linked root address (t.erase (claimLocation root address)) t') :
    c.Linked root address t t' := by
  refine ⟨h.workingDirectory, h.placed, h.claim, fun l hl => ?_⟩
  rw [h.rest l hl, FileTree.node?_erase_of_ne claimLocation_ne_nil, if_neg hl]

end Link

/-- Linking a pending claim succeeds exactly when the claim is vacant, and changes the claim and
nothing else. -/
theorem linkPending_cases (h : c.Placed root t) (hwrite : c.CanWrite address)
    (haddress : isAddress address = true)
    (hpending : t.Names (claimLocation root (pendingName c.owner address)) c.owner) :
    (c.IsVacant root address t ∧
      ∃ t', (c.linkPending address 3).run t = (.ok (), t') ∧ c.Linked root address t t') ∨
    (¬c.IsVacant root address t ∧ ∃ e, (c.linkPending address 3).run t = (.error e, t)) := by
  obtain ⟨executable, hnode⟩ := hpending
  have hready : c.Pending (claimsLocation root) address t c.owner.toUTF8 executable :=
    ⟨h.situated haddress, hwrite, hnode⟩
  rcases h.claim_cases address with hfree | ⟨other, hother, htaken⟩
  · refine Or.inl ⟨?_, _, (hready.yields_free 2 hfree).run, h.linked executable⟩
    rintro other ⟨_, htaken⟩
    rw [hfree] at htaken
    cases htaken
  · obtain ⟨_, hclaim⟩ := htaken
    have hholder : c.holder address t = other :=
      (hready.situated.holder_of_names hwrite hclaim).trans
        (trim_of_isAddress hother.isAddress)
    have hforeign := h.isForeign_iff hwrite haddress hother
    rw [← hholder] at hforeign
    cases hthere : c.isForeign (c.holder address t) t with
    | true =>
        obtain ⟨hne, hdirectory⟩ := hforeign.mp hthere
        rw [hholder] at hne hdirectory
        refine Or.inr ⟨fun hvacant => ?_, _, (hready.yields_held 2 hclaim hthere).run⟩
        rcases hvacant other ⟨_, hclaim⟩ with rfl | hgone
        · exact hne rfl
        · exact hgone hdirectory
    | false =>
        -- The claim is left over: it is removed, and the second attempt finds none.
        refine Or.inl ⟨?_, _, (hready.yields_stale 1 hclaim hthere).run,
          ((h.erase address).linked executable).of_erase⟩
        intro owner howner
        obtain rfl : other = owner := FileTree.Names.unique ⟨_, hclaim⟩ howner
        by_contra hnot
        rw [not_or, not_not] at hnot
        rw [← hholder] at hnot
        exact absurd (hforeign.mpr hnot) (by simp [hthere])

/-- When the pending claim has been linked, or has not, it is removed. -/
theorem acquire_run {ready linked : FileTree} {result : Except RegistryError Unit}
    (h : c.Placed root linked) (hwrite : c.CanWrite address) (haddress : isAddress address = true)
    (hready : (FileOp.write (c.pendingPath address) c.owner.toUTF8).apply t = .ok ready)
    (hlinked : (c.linkPending address 3).run ready = (result, linked))
    (hpending : linked.Names (claimLocation root (pendingName c.owner address)) c.owner) :
    (c.acquire address).run t =
      (result, linked.erase (claimLocation root (pendingName c.owner address))) := by
  obtain ⟨_, hnode⟩ := hpending
  have hunlink : (FileOp.unlink (c.pendingPath address)).apply linked =
      .ok (linked.erase (claimLocation root (pendingName c.owner address))) :=
    FileTree.unlink_of_locate ((h.situated haddress).locate_pending hwrite) hnode
  rw [acquire, FileAction.run_bind, FileAction.run_perform_ok hready]
  simp only [FileAction.run_bind, hlinked, FileAction.run_perform_ok hunlink,
    FileAction.run_pure]

theorem Written.isVacant_iff {ready : FileTree} (h : c.Written root address t ready)
    (haddress : isAddress address = true) :
    c.IsVacant root address ready ↔ c.IsVacant root address t :=
  isVacant_congr (h.rest _ (pending_ne_claim haddress).symm)
    fun _ => h.rest _ child_ne_claimLocation

theorem Written.granted {ready linked : FileTree} (h : c.Written root address t ready)
    (hlinked : c.Linked root address ready linked) (haddress : isAddress address = true) :
    Granted root c.owner address t
      (linked.erase (claimLocation root (pendingName c.owner address))) := by
  have herase : ∀ l, (linked.erase (claimLocation root (pendingName c.owner address))).node? l =
      if l = claimLocation root (pendingName c.owner address) then none else linked.node? l :=
    fun l => FileTree.node?_erase_of_ne claimLocation_ne_nil
  refine ⟨hlinked.workingDirectory.trans h.workingDirectory, ?_, ?_, ?_⟩
  · obtain ⟨executable, hnode⟩ := hlinked.claim
    exact ⟨executable, by rw [herase, if_neg (pending_ne_claim haddress).symm, hnode]⟩
  · rw [herase, if_pos rfl]
  · intro l hl hpending
    rw [herase, if_neg hpending, hlinked.rest l hl, h.rest l hpending]

theorem Written.refused {ready : FileTree} (h : c.Written root address t ready) :
    Refused root c.owner address t
      (ready.erase (claimLocation root (pendingName c.owner address))) := by
  have herase : ∀ l, (ready.erase (claimLocation root (pendingName c.owner address))).node? l =
      if l = claimLocation root (pendingName c.owner address) then none else ready.node? l :=
    fun l => FileTree.node?_erase_of_ne claimLocation_ne_nil
  refine ⟨h.workingDirectory, Or.inr ?_, ?_⟩
  · rw [herase, if_pos rfl]
  · intro l hl
    rw [herase, if_neg hl, h.rest l hl]

/-- An owner gets the claim of an address exactly when it can write a pending claim and the claim
is vacant. -/
theorem acquire_cases (h : c.Placed root t) (haddress : isAddress address = true) :
    ((c.CanWrite address ∧ c.IsVacant root address t) ∧
      ∃ t', (c.acquire address).run t = (.ok (), t') ∧ Granted root c.owner address t t') ∨
    (¬(c.CanWrite address ∧ c.IsVacant root address t) ∧
      ∃ e t', (c.acquire address).run t = (.error e, t') ∧
        Refused root c.owner address t t') := by
  by_cases hwrite : c.CanWrite address
  · obtain ⟨ready, hready, hwritten⟩ := write_pending h hwrite haddress
    have hvacant := hwritten.isVacant_iff haddress
    rcases linkPending_cases hwritten.placed hwrite haddress hwritten.pending with
      ⟨hfree, linked, hrun, hlinked⟩ | ⟨htaken, e, hrun⟩
    · have hpending : linked.Names (claimLocation root (pendingName c.owner address)) c.owner := by
        obtain ⟨executable, hnode⟩ := hwritten.pending
        exact ⟨executable, by rw [hlinked.rest _ (pending_ne_claim haddress), hnode]⟩
      have hacquired := acquire_run hlinked.placed hwrite haddress hready hrun hpending
      exact Or.inl ⟨⟨hwrite, hvacant.mp hfree⟩, _, hacquired,
        hwritten.granted hlinked haddress⟩
    · have hacquired := acquire_run hwritten.placed hwrite haddress hready hrun hwritten.pending
      exact Or.inr ⟨fun hcan => htaken (hvacant.mpr hcan.2), e, _, hacquired, hwritten.refused⟩
  · obtain ⟨e, herror⟩ := (h.situated haddress).write_error fun hcan => hwrite hcan.fits
    refine Or.inr ⟨fun hcan => hwrite hcan.1, .claim address e, t, ?_, rfl, Or.inl rfl, ?_⟩
    · rw [acquire, FileAction.run_bind, FileAction.run_perform_error herror]
      rfl
    · intro l hl
      rfl

/-- Giving up the claim of an address removes it if it is ours, and changes nothing else. -/
theorem release_cases (h : c.Placed root t) (haddress : isAddress address = true) :
    ((c.release address).run t).2 = t ∨
      t.Names (claimLocation root address) c.owner ∧
        ((c.release address).run t).2 = t.erase (claimLocation root address) := by
  rw [release, FileAction.run_bind, FileAction.run_observe]
  cases hread : t.readText (c.path address) with
  | error e => exact Or.inl rfl
  | ok text =>
      by_cases hours : (Text.trim text == c.owner) = true
      · obtain ⟨l, content, executable, hlocate, hnode⟩ := FileTree.file_of_readText hread
        obtain ⟨_, _, hl⟩ :=
          (FileTree.locate_child_eq_ok_iff (isName_of_isAddress haddress)).mp hlocate
        rw [h.reaches_directory.destination] at hl
        subst hl
        obtain ⟨owner, _, howner, heq⟩ := h.claims address _ hnode
        rw [heq] at hnode
        have htext := FileTree.readText_of_locate hlocate hnode
        rw [hread] at htext
        obtain rfl := Except.ok.inj htext
        have hunlink : (FileOp.unlink (c.path address)).apply t =
            .ok (t.erase (claimLocation root address)) :=
          FileTree.unlink_of_locate hlocate hnode
        have hself : text = c.owner := by
          rw [trim_of_isAddress howner.isAddress, beq_iff_eq] at hours
          exact hours
        refine Or.inr ⟨⟨_, hself ▸ hnode⟩, ?_⟩
        simp only [hours, ↓reduceIte, FileAction.run_bind, FileAction.run_perform_ok hunlink,
          FileAction.run_pure]
      · refine Or.inl ?_
        simp only [Bool.not_eq_true] at hours
        simp [hours]

end Claims

namespace Registry

open Claims (Granted Refused)

variable {r : Registry} {c : Claims} {root : Location} {t : FileTree} {address : String}

/-- A context is opened exactly when none is live and the claim of its address can be had. -/
theorem openContext_run (hclaims : r.claims = some c) (h : c.Placed root t)
    (haddress : isAddress address = true) :
    ((r.liveGeneration address = none ∧ c.CanWrite address ∧ c.IsVacant root address t) ∧
      ∃ t', (r.openContext address).run t =
          ((.ok (r.lastGeneration address + 1), r.opened address), t') ∧
        Granted root c.owner address t t') ∨
    (¬(r.liveGeneration address = none ∧ c.CanWrite address ∧ c.IsVacant root address t) ∧
      ∃ e t', (r.openContext address).run t = ((.error e, r), t') ∧
        Refused root c.owner address t t') := by
  rw [openContext]
  split
  · next generation hlive =>
    refine Or.inr ⟨fun hcan => ?_, _, t, rfl, rfl, Or.inl rfl, fun _ _ => rfl⟩
    rw [hlive] at hcan
    cases hcan.1
  · next hlive =>
    have hclaim : r.claim address = c.acquire address := by
      rw [claim, hclaims]
    rw [hclaim, FileAction.run_bind]
    rcases Claims.acquire_cases h haddress with
      ⟨hcan, t', hrun, hgranted⟩ | ⟨hcannot, e, t', hrun, hrefused⟩
    · rw [hrun]
      exact Or.inl ⟨⟨hlive, hcan⟩, t', rfl, hgranted⟩
    · rw [hrun]
      exact Or.inr ⟨fun hcan => hcannot hcan.2, e, t', rfl, hrefused⟩

/-- Closing a context that is not live changes nothing; otherwise our claim goes with it. -/
theorem closeContext_cases (hclaims : r.claims = some c) (h : c.Placed root t)
    (haddress : isAddress address = true) (generation : Generation) :
    (r.closeContext address generation).run t = (r, t) ∨
      ((r.closeContext address generation).run t).1 = r.retired address ∧
        (((r.closeContext address generation).run t).2 = t ∨
          t.Names (claimLocation root address) c.owner ∧
            ((r.closeContext address generation).run t).2 =
              t.erase (claimLocation root address)) := by
  have hregistry := r.closeContext_run address generation t
  by_cases hlive : r.isLive address generation = true
  · rw [if_pos hlive] at hregistry
    refine Or.inr ⟨hregistry, ?_⟩
    have hunclaim : r.unclaim address = c.release address := by
      rw [unclaim, hclaims]
    rw [closeContext, if_pos hlive, hunclaim, FileAction.run_bind]
    exact Claims.release_cases h haddress
  · rw [closeContext, if_neg hlive]
    exact Or.inl rfl

end Registry

end Automation
