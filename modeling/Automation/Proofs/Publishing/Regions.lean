import Automation.Proofs.Publishing.Collisions
import Automation.Proofs.Publishing.Staging
import Automation.Proofs.Publishing.Visibility

/-
Which places belong to an address.

The names of an address are those that begin with it and a dot, and its staging directory.  Addresses
have no dots, so the names of two addresses are apart.  What a store does for an address changes only
what has a name of it or lies below such a name, whatever the system refuses; to hand out a path it may
have to make the directories on the way first.
-/

namespace Automation

/-- Names that go up nowhere lead no higher. -/
theorem FileTree.length_le_lead {names : List String} (here : Location) (hup : ".." ∉ names) :
    here.length ≤ (FileTree.lead here names).length := by
  induction names generalizing here with
  | nil => exact le_rfl
  | cons name rest ih =>
      have hname : name ≠ ".." := fun heq => hup (heq ▸ List.mem_cons_self)
      have hnext := ih (FileTree.follow here name) fun hmem => hup (List.mem_cons_of_mem name hmem)
      rw [FileTree.lead_cons]
      apply le_trans _ hnext
      rw [FileTree.follow, if_neg hname]
      split
      · exact le_rfl
      · simp

namespace ArtifactStore

open FileAction

/-- What a store can be told to do for an address. -/
inductive Order where
  | stagingPath (n : Nat)
  | commit (staged : Path)
  | discard (staged : Path)
  | evict
  | cleanStaging
  | read
  | hasArtifact

namespace Order

/-- What is said in the end. -/
def Answer : Order → Type
  | stagingPath _ => Except Failure (Path × Nat)
  | commit _ => Except Failure Unit
  | discard _ => Except Failure Unit
  | evict => Except Failure Unit
  | cleanStaging => Except Failure Unit
  | read => Except Failure ArtifactImage
  | hasArtifact => Bool

/-- What the store does. -/
def act (s : ArtifactStore) (address : String) : (order : Order) → FileAction order.Answer
  | stagingPath n => (s.stagingPath address n).run
  | commit staged => (s.commit staged address).run
  | discard staged => (s.discard staged).run
  | evict => (s.evict address).run
  | cleanStaging => (s.cleanStaging address).run
  | read => (s.read address).run
  | hasArtifact => FileAction.observe (s.hasArtifact address)

/-- Committed and discarded is only what was staged for the address. -/
def IsFor (s : ArtifactStore) (address : String) : Order → Prop
  | commit staged => s.HandsOut address staged
  | discard staged => s.HandsOut address staged
  | _ => True

/-- A path is to be handed out. -/
def IsStaging : Order → Prop
  | stagingPath _ => True
  | _ => False

end Order

/-- A location is that of the stable artifact of an address, of what may hold its debug symbols or of
its staging directory, or it is below one of these. -/
def Owned (s : ArtifactStore) (address : String) (wd l : Location) : Prop :=
  ∃ stable directory, s.stablePath address = .ok stable ∧
    s.stagingDirectory address = .ok directory ∧
      ∃ p ∈ directory :: stable :: s.debugVariants stable, p.destination wd <+: l

/-- A location is below the programs directory. -/
def Below (s : ArtifactStore) (wd l : Location) : Prop :=
  ∃ name rest, l = s.programsDir.destination wd ++ name :: rest

/-- A location is one that the path of the programs directory leads through, or leads to. -/
def OnTheWay (s : ArtifactStore) (wd l : Location) : Prop :=
  ∃ before, before <+: s.programsDir.names ∧
    l = FileTree.lead (s.programsDir.origin wd) before

/-- Where nothing was on the way there is a directory. -/
def MadeOnTheWay (s : ArtifactStore) (t now : FileTree) (l : Location) : Prop :=
  s.OnTheWay t.workingDirectory l ∧ t.node? l = none ∧ now.node? l = some .directory

/-- A location has a name of an address or is below one. -/
inductive Belongs (s : ArtifactStore) (address : String) (wd l : Location) : Prop where
  | named (tail : String) (hdot : tail.toList.head? = some '.')
      (h : s.programsDir.destination wd ++ [address ++ tail] <+: l)
  | staged (h : s.programsDir.destination wd ++ [stagingName, address] <+: l)

/-- Extensions are bare, so that all names of an artifact go on with a dot after its label. -/
structure Plain (s : ArtifactStore) : Prop extends WellNamed s where
  trunk : s.trunk = ""

section Names

variable {s : ArtifactStore} {address other label tail : String} {wd l m : Location} {p : Path}

theorem plain_ofConfig {c : EngineConfig} (h : c.validate = .ok ()) : (ofConfig c).Plain :=
  ⟨wellNamed_ofConfig h, trunk_of_isBare (isBare_of_validate h).1⟩

theorem head?_artifactTail (s : ArtifactStore) : s.artifactTail.toList.head? = some '.' := by
  simp [artifactTail]

theorem Plain.head?_of_mem (hs : s.Plain) (h : tail ∈ s.variantTails) :
    tail.toList.head? = some '.' := by
  obtain ⟨extension, -, heq⟩ := mem_variantTails.mp h
  rcases heq with rfl | rfl
  · simp [artifactTail]
  · simp [hs.trunk]

/-- An artifact and what may hold its debug symbols have names that go on with a dot. -/
theorem Plain.exists_tail (hs : s.Plain) (hlabel : isAddress label = true) {dir : Path}
    (hp : p ∈ dir.child (label ++ s.artifactTail) ::
      s.debugVariants (dir.child (label ++ s.artifactTail))) :
    ∃ tail, tail.toList.head? = some '.' ∧ IsPart (label ++ tail) ∧ p = dir.child (label ++ tail) := by
  rw [debugVariants_artifact hs.toWellNamed hlabel] at hp
  rcases List.mem_cons.mp hp with rfl | hp
  · exact ⟨_, head?_artifactTail s, isPart_artifact hs.toWellNamed hlabel, rfl⟩
  · obtain ⟨tail, htail, rfl⟩ := List.mem_map.mp hp
    exact ⟨tail, hs.head?_of_mem htail,
      isPart_label_append hlabel (noSlash_variantTail hs.toWellNamed htail), rfl⟩

theorem destination_desk (haddress : isAddress address = true) (wd : Location) :
    (s.desk address).destination wd =
      s.programsDir.destination wd ++ [stagingName, address] := by
  rw [desk, Path.destination_child (isName_of_isAddress haddress).isPart,
    Path.destination_child isName_stagingName.isPart, List.append_assoc]
  rfl

theorem stagingDirectory_eq (haddress : isAddress address = true) :
    s.stagingDirectory address = .ok (s.desk address) := by
  rw [stagingDirectory, checkAddress, if_pos haddress]
  rfl

theorem Belongs.of_isPrefix (h : s.Belongs address wd l) (hm : l <+: m) :
    s.Belongs address wd m := by
  cases h with
  | named tail hdot h => exact .named tail hdot (h.trans hm)
  | staged h => exact .staged (h.trans hm)

theorem Belongs.below (h : s.Belongs address wd l) : s.Below wd l := by
  cases h with
  | named tail hdot h =>
      obtain ⟨rest, rfl⟩ := h
      exact ⟨address ++ tail, rest, by simp⟩
  | staged h =>
      obtain ⟨rest, rfl⟩ := h
      exact ⟨stagingName, address :: rest, by simp⟩

theorem belongs_child (hdot : tail.toList.head? = some '.') (hpart : IsPart (address ++ tail))
    (wd : Location) :
    s.Belongs address wd ((s.programsDir.child (address ++ tail)).destination wd) := by
  rw [Path.destination_child hpart]
  exact .named tail hdot List.prefix_rfl

theorem belongs_desk (haddress : isAddress address = true) (wd : Location) :
    s.Belongs address wd ((s.desk address).destination wd) :=
  .staged (destination_desk haddress wd ▸ List.prefix_rfl)

theorem belongs_desk_child {name : String} (haddress : isAddress address = true)
    (hname : IsPart name) (wd : Location) :
    s.Belongs address wd (((s.desk address).child name).destination wd) := by
  apply (belongs_desk haddress wd).of_isPrefix
  rw [Path.destination_child hname]
  exact List.prefix_append _ _

/-- Only addresses own anything. -/
theorem Owned.isAddress (h : s.Owned address wd l) : isAddress address = true := by
  obtain ⟨stable, -, hstable, -⟩ := h
  by_contra hnot
  rw [stablePath, checkAddress, if_neg hnot] at hstable
  cases hstable

/-- What is owned belongs to its owner. -/
theorem Plain.belongs_of_owned (hs : s.Plain) (h : s.Owned address wd l) :
    s.Belongs address wd l := by
  have haddress := h.isAddress
  obtain ⟨stable, directory, hstable, hdirectory, p, hp, hl⟩ := h
  obtain rfl := Except.ok.inj ((stablePath_eq haddress).symm.trans hstable)
  obtain rfl := Except.ok.inj ((stagingDirectory_eq haddress).symm.trans hdirectory)
  apply Belongs.of_isPrefix _ hl
  rcases List.mem_cons.mp hp with rfl | hp
  · exact belongs_desk haddress wd
  · obtain ⟨tail, hdot, hpart, rfl⟩ := hs.exists_tail haddress hp
    exact belongs_child hdot hpart wd

/-- An address is read from a name of it: it ends at the first dot. -/
theorem label_eq_of_append_eq {tail' : String} (haddress : isAddress address = true)
    (hother : isAddress other = true) (hdot : tail.toList.head? = some '.')
    (hdot' : tail'.toList.head? = some '.') (h : address ++ tail = other ++ tail') :
    address = other := by
  have htake : ∀ {label tail : String}, isAddress label = true → tail.toList.head? = some '.' →
      (label ++ tail).toList.takeWhile (· ≠ '.') = label.toList := by
    intro label tail hlabel htail
    obtain ⟨rest, hrest⟩ := List.head?_eq_some_iff.mp htail
    have hnone : '.' ∉ label.toList := notMem_of_isAddress hlabel (by decide)
    rw [String.toList_append, List.takeWhile_append_of_pos, hrest]
    · simp
    · intro c hc
      simpa using fun heq : c = '.' => hnone (heq ▸ hc)
  have hsame := htake haddress hdot
  rw [h, htake hother hdot'] at hsame
  exact String.toList_inj.mp hsame.symm

/-- Nothing belongs to two addresses. -/
theorem Belongs.eq (haddress : isAddress address = true) (hother : isAddress other = true)
    (h : s.Belongs address wd l) (h' : s.Belongs other wd l) : address = other := by
  have hsame : ∀ {first second : Location}, s.programsDir.destination wd ++ first <+: l →
      s.programsDir.destination wd ++ second <+: l → first.length = second.length →
        first = second := by
    intro first second hfirst hsecond hlength
    have hle := List.prefix_of_prefix_length_le hfirst hsecond (by simp [hlength])
    exact ((List.prefix_append_right_inj _).mp hle).eq_of_length hlength
  have hshort : ∀ {name : String}, s.programsDir.destination wd ++ [stagingName, name] <+: l →
      s.programsDir.destination wd ++ [stagingName] <+: l := by
    intro name hlong
    refine ((List.prefix_append_right_inj _).mpr ?_).trans hlong
    exact List.prefix_append [stagingName] [name]
  cases h with
  | named tail hdot h =>
      cases h' with
      | named tail' hdot' h' =>
          exact label_eq_of_append_eq haddress hother hdot hdot' (List.singleton_inj.mp (hsame h h' rfl))
      | staged h' =>
          have heq := List.singleton_inj.mp (hsame h (hshort h') rfl)
          exact absurd heq (label_append_ne_stagingName haddress tail)
  | staged h =>
      cases h' with
      | named tail' hdot' h' =>
          have heq := List.singleton_inj.mp (hsame h' (hshort h) rfl)
          exact absurd heq (label_append_ne_stagingName hother tail')
      | staged h' => exact (List.cons.inj (List.cons.inj (hsame h h' rfl)).2).1

/-- The directory around all staging directories belongs to no address. -/
theorem not_belongs_staging (haddress : isAddress address = true) :
    ¬s.Belongs address wd (s.programsDir.destination wd ++ [stagingName]) := by
  intro h
  cases h with
  | named tail hdot h =>
      have hle := (List.prefix_append_right_inj _).mp h
      exact label_append_ne_stagingName haddress tail (List.cons_prefix_cons.mp hle).1
  | staged h =>
      have hle := (List.prefix_append_right_inj _).mp h
      have hlength := hle.length_le
      simp at hlength

/-- As long as the path of the programs directory goes up nowhere, the way there is above all that
belongs to an address. -/
theorem OnTheWay.not_below (h : s.OnTheWay wd l) (hup : ".." ∉ s.programsDir.names) :
    ¬s.Below wd l := by
  rintro ⟨name, rest, hl⟩
  obtain ⟨before, ⟨after, hafter⟩, rfl⟩ := h
  have hend : s.programsDir.destination wd =
      FileTree.lead (FileTree.lead (s.programsDir.origin wd) before) after := by
    rw [Path.destination, ← hafter, FileTree.lead_append]
  have hrest : ".." ∉ after := fun hmem => hup (hafter ▸ List.mem_append_right before hmem)
  have hlength := congrArg List.length hl
  have hle := FileTree.length_le_lead (FileTree.lead (s.programsDir.origin wd) before) hrest
  rw [← hend] at hle
  simp at hlength
  omega

end Names

/-- Nothing has changed but what belongs to an address. -/
structure Minded (s : ArtifactStore) (address : String) (t now : FileTree) : Prop where
  workingDirectory : now.workingDirectory = t.workingDirectory
  node : ∀ l, ¬s.Belongs address t.workingDirectory l → now.node? l = t.node? l

/-- A step touches only what belongs to an address. -/
def Minds (s : ArtifactStore) (address : String) (op : FileOp) : Prop :=
  ∀ wd l, ¬s.Belongs address wd l → op.Spares wd l

section Steps

variable {α : Type} {s : ArtifactStore} {address label : String} {staged p q : Path}
  {t t' t₁ t₂ now now' : FileTree} {events made swapped : List FileEvent} {value : α} {wd : Location}

theorem Minded.refl (s : ArtifactStore) (address : String) (t : FileTree) :
    s.Minded address t t :=
  ⟨rfl, fun _ _ => rfl⟩

theorem Minded.step {op : FileOp} (h : s.Minded address t now) (hop : s.Minds address op)
    (happly : op.apply now = .ok now') : s.Minded address t now' := by
  obtain ⟨hwd, hspared⟩ := FileTree.spared_of_apply happly
  refine ⟨hwd.trans h.workingDirectory, ?_⟩
  intro l hl
  rw [hspared l (hop _ l (h.workingDirectory ▸ hl)), h.node l hl]

/-- Only what belongs to the address changes on a course of such steps. -/
theorem Minded.history {action : FileAction α} (h : s.Minded address t now)
    (htries : action.Tries (s.Minds address)) (hhistory : History action now events value now') :
    (∀ event ∈ events, s.Minded address t event.after) ∧ s.Minded address t now' :=
  hhistory.keeps htries (fun _ _ _ hop hnow happly => hnow.step hop happly) h

theorem minds_unlink (h : ∀ wd, s.Belongs address wd (p.destination wd)) :
    s.Minds address (.unlink p) := by
  intro wd l hl heq
  exact hl (heq ▸ h wd)

theorem minds_removeTree (h : ∀ wd, s.Belongs address wd (p.destination wd)) :
    s.Minds address (.removeTree p) := by
  intro wd l hl hbelow
  exact hl ((h wd).of_isPrefix hbelow)

theorem minds_rename (h : ∀ wd, s.Belongs address wd (p.destination wd))
    (h' : ∀ wd, s.Belongs address wd (q.destination wd)) : s.Minds address (.rename p q) := by
  intro wd l hl
  constructor
  · intro hbelow
    exact hl ((h wd).of_isPrefix hbelow)
  · intro hbelow
    exact hl ((h' wd).of_isPrefix hbelow)

/-- To discard an artifact is to remove names of its label. -/
theorem Plain.tries_discard (hs : s.Plain) (hlabel : isAddress label = true) {dir : Path}
    (h : ∀ tail, tail.toList.head? = some '.' → IsPart (label ++ tail) →
      ∀ wd, s.Belongs address wd ((dir.child (label ++ tail)).destination wd)) :
    (s.discard (dir.child (label ++ s.artifactTail))).run.Tries (s.Minds address) := by
  apply tries_discard_of_forall
  intro p hp
  obtain ⟨tail, hdot, hpart, rfl⟩ := hs.exists_tail hlabel hp
  exact minds_unlink (h tail hdot hpart)

theorem Plain.tries_discard_staged (hs : s.Plain) (hstaged : s.HandsOut address staged) :
    (s.discard staged).run.Tries (s.Minds address) := by
  obtain ⟨haddress, label, hlabel, rfl⟩ := hstaged.exists_label
  apply hs.tries_discard hlabel
  intro tail _ hpart
  exact belongs_desk_child haddress hpart

theorem Plain.tries_evict (hs : s.Plain) (haddress : isAddress address = true) :
    (s.evict address).run.Tries (s.Minds address) := by
  rw [evict, stablePath_eq haddress]
  apply hs.tries_discard haddress
  intro tail hdot hpart
  exact belongs_child hdot hpart

theorem tries_inspect {kind : FileOp → Prop} {activity : Activity}
    {look : FileTree → Except OsError α} :
    (FileTask.inspect activity look).run.Tries kind :=
  FileTask.tries_during (tries_observe look)

/-- To read takes no step. -/
theorem tries_readDebug {kind : FileOp → Prop} {stable : Path} {extensions : List String} :
    (readDebug stable extensions).run.Tries kind := by
  induction extensions with
  | nil => exact tries_pure _
  | cons extension rest ih =>
      apply FileTask.tries_bind (FileTask.tries_observe _)
      intro found
      split
      · exact FileTask.tries_bind tries_inspect fun _ => tries_pure _
      · exact ih

theorem tries_read {kind : FileOp → Prop} : (s.read address).run.Tries kind := by
  apply FileTask.tries_bind
  · rw [FileTask.ofExcept]
    exact tries_pure _
  · intro stable
    apply FileTask.tries_bind tries_inspect
    intro bytes
    exact FileTask.tries_bind tries_readDebug fun _ => tries_pure _

namespace Layout

variable (h : s.Layout address label)

include h

theorem belongs_aside (wd : Location) :
    s.Belongs address wd ((asidePath (s.stagedAs address label)).destination wd) := by
  rw [h.aside_eq]
  exact belongs_desk_child h.address h.isName_aside.isPart wd

/-- The moves of debug files touch only what belongs to the address. -/
theorem minds_of_handles (hs : s.Plain) {op : FileOp}
    (hop : (h.bench wd).Handles s.variantTails op) : s.Minds address op := by
  have hstable : ∀ {tail : String}, tail ∈ s.variantTails →
      ∀ wd', s.Belongs address wd' (((h.bench wd).stable tail).destination wd') :=
    fun htail => belongs_child (hs.head?_of_mem htail) (h.isPart_stable htail)
  have hstaged : ∀ {tail : String}, tail ∈ s.variantTails →
      ∀ wd', s.Belongs address wd' (((h.bench wd).staged tail).destination wd') :=
    fun htail => belongs_desk_child h.address (h.isPart_staged htail)
  have hkept : ∀ (i : Nat) wd', s.Belongs address wd' (((h.bench wd).kept i).destination wd') := by
    intro i wd'
    apply (h.belongs_aside wd').of_isPrefix
    rw [Bench.kept, Path.destination_child (Bench.isPart_kept i)]
    exact List.prefix_append _ _
  cases hop with
  | away tail i htail => exact minds_rename (hstable htail) (hkept i)
  | into tail htail => exact minds_rename (hstaged htail) (hstable htail)
  | back tail i htail => exact minds_rename (hkept i) (hstable htail)
  | remove tail htail => exact minds_unlink (hstable htail)

theorem minds_replace : s.Minds address (.rename (s.stagedAs address label) (s.stableAs address)) :=
  minds_rename (belongs_desk_child h.address h.isName_staged.isPart)
    (belongs_child (head?_artifactTail s) h.isName_stable.isPart)

/-- The directory for what is set aside is made in one that is there. -/
theorem minded_of_made {outcome : Except OsError Unit}
    (hdesk : t.Reaches (s.desk address) (h.bench t.workingDirectory).deskAt)
    (hmade : History (FileAction.createDirectory (asidePath (s.stagedAs address label))) t made
      outcome t₁) :
    (∀ event ∈ made, s.Minded address t event.after) ∧ s.Minded address t t₁ := by
  have haside := h.belongs_aside t.workingDirectory
  rw [h.destination_aside, h.asideAt_eq] at haside
  rw [h.aside_eq] at hmade
  have hmaking := making_createDirectory hdesk h.isName_aside hmade
  have hend : s.Minded address t t₁ := by
    refine ⟨hmaking.workingDirectory, ?_⟩
    intro l hl
    exact hmaking.node?_other fun heq => hl (heq ▸ haside)
  refine ⟨?_, hend⟩
  intro event hevent
  rcases hmaking.seen event hevent with heq | heq
  · exact heq ▸ .refl s address t
  · exact heq ▸ hend

end Layout

/-- Whatever becomes of a commit, it changes only what belongs to the address. -/
theorem minded_of_commit {result : Except Failure Unit} (hs : s.Plain)
    (hstaged : s.HandsOut address staged)
    (h : History (s.commit staged address).run t events result t') :
    (∀ event ∈ events, s.Minded address t event.after) ∧ s.Minded address t t' := by
  have hcourse := course_of_history (stablePath_eq hstaged.exists_label.1) h
  by_cases hfile : t.isFile staged = true
  · obtain ⟨label, hlayout, rfl, hdesk⟩ := hstaged.exists_layout hs.toWellNamed hfile
    have hmoves : ∀ {α : Type} {action : FileAction α},
        action.Tries ((hlayout.bench t.workingDirectory).Handles s.variantTails) →
          action.Tries (s.Minds address) :=
      fun htries => htries.mono fun _ hop => hlayout.minds_of_handles hs hop
    have hclosing : (perform (.removeTree (asidePath (s.stagedAs address label)))).Tries
        (s.Minds address) := tries_perform (minds_removeTree hlayout.belongs_aside)
    cases hcourse with
    | missing f hnone =>
        rw [hnone] at hfile
        cases hfile
    | unprepared f _ hmade => exact hlayout.minded_of_made hdesk hmade
    | undone f _ hmade hswapped htried hrestored hclosed =>
        obtain ⟨hmadeSeen, hfirst⟩ := hlayout.minded_of_made hdesk hmade
        obtain ⟨hswappedSeen, hsecond⟩ := hfirst.history (hmoves (hlayout.tries_swaps _)) hswapped
        obtain ⟨hrestoredSeen, hthird⟩ :=
          hsecond.history (hmoves (hlayout.tries_restore hswapped)) hrestored
        obtain ⟨hclosedSeen, hend⟩ := hthird.history hclosing hclosed
        refine ⟨?_, hend⟩
        simp only [List.forall_mem_append]
        exact ⟨hmadeSeen, hswappedSeen, fun event hevent => htried event hevent ▸ hsecond,
          hrestoredSeen, hclosedSeen⟩
    | published _ hmade hswapped hrename hclosed =>
        obtain ⟨hmadeSeen, hfirst⟩ := hlayout.minded_of_made hdesk hmade
        obtain ⟨hswappedSeen, hsecond⟩ := hfirst.history (hmoves (hlayout.tries_swaps _)) hswapped
        have hthird := hsecond.step hlayout.minds_replace hrename
        obtain ⟨hclosedSeen, hend⟩ := hthird.history hclosing hclosed
        refine ⟨?_, hend⟩
        simp only [List.forall_mem_append, List.forall_mem_cons]
        exact ⟨hmadeSeen, hswappedSeen, hthird, hclosedSeen⟩
  · obtain ⟨rfl, rfl⟩ := hcourse.of_missing (Bool.not_eq_true _ ▸ hfile)
    exact ⟨by simp, .refl s address _⟩

/-- What a store does for an address changes only what belongs to it, save that the way there may have
to be made before a path is handed out. -/
theorem Plain.minded_of_order (hs : s.Plain) (haddress : isAddress address = true) (order : Order)
    (hfor : order.IsFor s address) (hnot : ¬order.IsStaging) {answer : order.Answer}
    (h : History (order.act s address) t events answer t') :
    (∀ event ∈ events, s.Minded address t event.after) ∧ s.Minded address t t' := by
  have hstart := Minded.refl s address t
  cases order with
  | stagingPath n => exact absurd trivial hnot
  | commit staged => exact minded_of_commit hs hfor h
  | discard staged => exact hstart.history (hs.tries_discard_staged hfor) h
  | evict => exact hstart.history (hs.tries_evict haddress) h
  | cleanStaging =>
      exact hstart.history (tries_cleanStaging_of_clear (minds_removeTree (belongs_desk haddress))) h
  | read => exact hstart.history tries_read h
  | hasArtifact => exact hstart.history (tries_observe _) h

/-- A location that belongs to an address is below the programs directory, and is not somebody else's. -/
theorem Plain.of_belongs (hs : s.Plain) (haddress : isAddress address = true) {l : Location}
    (h : s.Belongs address wd l) :
    s.Below wd l ∧ ∀ other, other ≠ address → ¬s.Owned other wd l := by
  refine ⟨h.below, ?_⟩
  intro other hother howned
  exact hother ((hs.belongs_of_owned howned).eq howned.isAddress haddress h)

/-- All that changes is below the programs directory, and nobody else's, or it is a directory that was
made on the way there. -/
structure KeepsApart (s : ArtifactStore) (address : String) (staging : Prop) (t now : FileTree) :
    Prop where
  workingDirectory : now.workingDirectory = t.workingDirectory
  node : ∀ l, now.node? l = t.node? l ∨
    (s.Below t.workingDirectory l ∧ ∀ other, other ≠ address →
      ¬s.Owned other t.workingDirectory l) ∨
    staging ∧ s.MadeOnTheWay t now l

theorem Minded.keepsApart (h : s.Minded address t now) (hs : s.Plain)
    (haddress : isAddress address = true) {staging : Prop} :
    s.KeepsApart address staging t now := by
  refine ⟨h.workingDirectory, ?_⟩
  intro l
  by_cases hl : s.Belongs address t.workingDirectory l
  · exact Or.inr (Or.inl (hs.of_belongs haddress hl))
  · exact Or.inl (h.node l hl)

/-- The directory around all staging directories is below the programs directory and is nobody's. -/
theorem Undisturbed.keepsApart (h : s.Undisturbed address t now) (hs : s.Plain)
    (haddress : isAddress address = true) : s.KeepsApart address True t now := by
  refine ⟨h.workingDirectory, ?_⟩
  intro l
  by_cases hl : (s.desk address).destination t.workingDirectory <+: l
  · exact Or.inr (Or.inl (hs.of_belongs haddress ((belongs_desk haddress _).of_isPrefix hl)))
  rcases h.node l hl with hsame | ⟨hplace, hfree, hmade⟩
  · exact Or.inl hsame
  rcases hplace.cases haddress with rfl | rfl | hway
  · exact absurd List.prefix_rfl hl
  · refine Or.inr (Or.inl ⟨⟨stagingName, [], rfl⟩, ?_⟩)
    intro other _ howned
    exact not_belongs_staging howned.isAddress (hs.belongs_of_owned howned)
  · exact Or.inr (Or.inr ⟨trivial, hway, hfree, hmade⟩)

/-- In every state on the way and in the end addresses have been kept apart. -/
theorem Plain.keepsApart_of_order (hs : s.Plain) (haddress : isAddress address = true)
    (order : Order) (hfor : order.IsFor s address) {answer : order.Answer}
    (h : History (order.act s address) t events answer t') :
    (∀ event ∈ events, s.KeepsApart address order.IsStaging t event.after) ∧
      s.KeepsApart address order.IsStaging t t' := by
  by_cases hstaging : order.IsStaging
  · cases order with
    | stagingPath n =>
        obtain ⟨hevents, hend⟩ := h.keeps (tries_stagingPath n)
          (fun _ _ _ hstep hnow happly => hnow.trans (hstep.undisturbed happly))
          (Undisturbed.refl s address t)
        exact ⟨fun event hevent => (hevents event hevent).keepsApart hs haddress,
          hend.keepsApart hs haddress⟩
    | _ => cases hstaging
  · obtain ⟨hevents, hend⟩ := hs.minded_of_order haddress order hfor hstaging h
    exact ⟨fun event hevent => (hevents event hevent).keepsApart hs haddress,
      hend.keepsApart hs haddress⟩

end Steps

end ArtifactStore

end Automation
