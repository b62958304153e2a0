import Automation.Proofs.Files.Contents
import Automation.Proofs.Files.Effects
import Automation.Proofs.Files.Histories
import Automation.Proofs.Files.Sparing
import Automation.Proofs.Files.Ways
import Automation.Proofs.Generations
import Automation.Proofs.Sharing.Names

/-
How claiming an address ends.

A claim may hold anything.  Whether it can be taken hangs on who it names: nobody, the one who is
claiming, somebody whose directory is gone, or somebody who is still there.  A claim that can be
taken is out of the way after the first attempt, so the second one succeeds.  On its way an owner
changes its pending claim and the claim itself, and since both are files the directories that
owners are looked for in are the same all along.
-/

namespace Automation

namespace FileTree

variable {t t' t'' : FileTree} {p : Path} {l : Location}

/-- Two trees have the same directories, and relative paths start from the same one. -/
structure SameDirectories (t t' : FileTree) : Prop where
  workingDirectory : t'.workingDirectory = t.workingDirectory
  directory : ∀ l, t'.node? l = some .directory ↔ t.node? l = some .directory

namespace SameDirectories

theorem refl (t : FileTree) : t.SameDirectories t := ⟨rfl, fun _ => Iff.rfl⟩

theorem symm (h : t.SameDirectories t') : t'.SameDirectories t :=
  ⟨h.workingDirectory.symm, fun l => (h.directory l).symm⟩

theorem trans (h : t.SameDirectories t') (h' : t'.SameDirectories t'') :
    t.SameDirectories t'' :=
  ⟨h'.workingDirectory.trans h.workingDirectory,
    fun l => (h'.directory l).trans (h.directory l)⟩

/-- Where files come and go, directories stay. -/
theorem of_agreesOff {places : Location → Prop} (h : t.AgreesOff places t') :
    t.SameDirectories t' :=
  ⟨h.workingDirectory, h.directory_iff⟩

theorem put_file (hfree : t.node? l ≠ some .directory) (content : ByteArray)
    (executable : Bool) : t.SameDirectories (t.put l (.file content executable)) :=
  .of_agreesOff (agreesOff_put_file hfree content executable)

theorem erase (hfile : t.node? l ≠ some .directory) : t.SameDirectories (t.erase l) :=
  .of_agreesOff (agreesOff_erase hfile)

theorem reaches (h : t.SameDirectories t') (hreaches : t.Reaches p l) : t'.Reaches p l :=
  hreaches.of_kept h.workingDirectory fun m hm => (h.directory m).mpr hm

/-- Only directories decide where a path leads. -/
theorem locate (h : t.SameDirectories t') (hlocate : t.locate p = .ok l) :
    t'.locate p = .ok l :=
  locate_of_kept h.workingDirectory (fun m _ => (h.directory m).mpr) hlocate

theorem isDirectory_of (h : t.SameDirectories t') (hp : t.isDirectory p = true) :
    t'.isDirectory p = true := by
  obtain ⟨l, hlocate, hnode⟩ := isDirectory_eq_true_iff.mp hp
  exact isDirectory_eq_true_iff.mpr ⟨l, h.locate hlocate, (h.directory l).mpr hnode⟩

theorem isDirectory (h : t.SameDirectories t') (p : Path) :
    t'.isDirectory p = t.isDirectory p :=
  Bool.eq_iff_iff.mpr ⟨h.symm.isDirectory_of, h.isDirectory_of⟩

end SameDirectories

end FileTree

/-- The step is an attempt to give a file a second name. -/
def FileOp.isLink : FileOp → Bool
  | .link .. => true
  | _ => false

namespace FileAction

variable {α β : Type}

/-- How often a run attempts to give a file a second name. -/
def links (action : FileAction α) (t : FileTree) : Nat :=
  (action.steps t).countP fun event => event.op.isLink

/-- The action ends with that value and those files, after so many attempts to link. -/
structure Yields (action : FileAction α) (t : FileTree) (links : Nat) (value : α) (t' : FileTree) :
    Prop where
  run : action.run t = (value, t')
  links : action.links t = links

variable {action : FileAction α} {f : α → FileAction β} {value : α} {result : β}
  {t t₁ t' : FileTree} {first second total : Nat}

theorem Yields.bind (h : action.Yields t first value t₁) (hf : (f value).Yields t₁ second result t')
    (htotal : first + second = total := by rfl) : (action >>= f).Yields t total result t' := by
  refine ⟨?_, ?_⟩
  · rw [run_bind, h.run, hf.run]
  · rw [FileAction.links, steps_bind, List.countP_append, h.run, ← htotal]
    exact congrArg₂ (· + ·) h.links hf.links

theorem yields_pure (value : α) (t : FileTree) : (pure value : FileAction α).Yields t 0 value t :=
  ⟨rfl, rfl⟩

theorem yields_observe (look : FileTree → α) (t : FileTree) :
    (observe look).Yields t 0 (look t) t := ⟨rfl, rfl⟩

theorem links_perform (op : FileOp) (t : FileTree) :
    (perform op).links t = if op.isLink then 1 else 0 := by
  have hsteps : ∃ result t', (perform op).steps t = [⟨t, op, result, t'⟩] := ⟨_, _, rfl⟩
  obtain ⟨_, _, hsteps⟩ := hsteps
  rw [FileAction.links, hsteps, List.countP_singleton]

theorem yields_perform_ok {op : FileOp} (h : op.apply t = .ok t') :
    (perform op).Yields t (if op.isLink then 1 else 0) (.ok ()) t' :=
  ⟨run_perform_ok h, links_perform op t⟩

theorem yields_perform_error {op : FileOp} {e : OsError} (h : op.apply t = .error e) :
    (perform op).Yields t (if op.isLink then 1 else 0) (.error e) t :=
  ⟨run_perform_error h, links_perform op t⟩

end FileAction

namespace Claims

/-- Somebody claims an address: both have names that could be addresses, and the directory of the
claims is there. -/
structure Situated (c : Claims) (l : Location) (address : String) (t : FileTree) : Prop where
  owner : isAddress c.owner = true
  address : isAddress address = true
  reaches : t.Reaches c.directory l

/-- The pending claim can be written: neither its name nor its path is too long, and it is no
directory. -/
structure Writable (c : Claims) (l : Location) (address : String) (t : FileTree) : Prop where
  fits : FileTree.Fits c.directory (pendingName c.owner address)
  free : t.node? (l ++ [pendingName c.owner address]) ≠ some .directory

/-- What there is at the claim of an address decides how claiming it ends. -/
inductive Decides (c : Claims) (address : String) (t : FileTree) :
    Option Node → Except RegistryError Unit → Prop where
  /-- There is no claim. -/
  | absent : Decides c address t none (.ok ())
  /-- The claim is no text. -/
  | unreadable {content : ByteArray} {executable : Bool} (text : Text.strict? content = none) :
      Decides c address t (some (.file content executable)) (.ok ())
  /-- The claim names nobody. -/
  | blank {content : ByteArray} {executable : Bool} {text : String}
      (text_eq : Text.strict? content = some text) (nobody : Text.trim text = "") :
      Decides c address t (some (.file content executable)) (.ok ())
  /-- The claim names the one who is claiming. -/
  | ours {content : ByteArray} {executable : Bool} {text : String}
      (text_eq : Text.strict? content = some text) (self : Text.trim text = c.owner) :
      Decides c address t (some (.file content executable)) (.ok ())
  /-- The claim names somebody whose directory is gone. -/
  | gone {content : ByteArray} {executable : Bool} {text : String}
      (text_eq : Text.strict? content = some text)
      (missing : t.isDirectory (c.ownersRoot.join ⟨Text.trim text⟩) = false) :
      Decides c address t (some (.file content executable)) (.ok ())
  /-- The claim names somebody else who is still there. -/
  | held {content : ByteArray} {executable : Bool} {text : String}
      (text_eq : Text.strict? content = some text) (somebody : Text.trim text ≠ "")
      (other : Text.trim text ≠ c.owner)
      (there : t.isDirectory (c.ownersRoot.join ⟨Text.trim text⟩) = true) :
      Decides c address t (some (.file content executable))
        (.error (.claimedElsewhere address (Text.trim text)))
  /-- A directory is in the way. -/
  | directory : Decides c address t (some .directory) (.error (.claim address .isDirectory))

section Decides

variable {c : Claims} {address : String} {t t' : FileTree} {node : Option Node}
  {result other : Except RegistryError Unit}

theorem Decides.unique (h : c.Decides address t node result) (h' : c.Decides address t node other) :
    result = other := by
  cases h <;> cases h' <;> simp_all

theorem Decides.congr (hsame : t.SameDirectories t') (h : c.Decides address t' node result) :
    c.Decides address t node result := by
  cases h with
  | absent => exact .absent
  | unreadable text => exact .unreadable text
  | blank text_eq nobody => exact .blank text_eq nobody
  | ours text_eq self => exact .ours text_eq self
  | gone text_eq missing => exact .gone text_eq (hsame.isDirectory _ ▸ missing)
  | held text_eq somebody other there =>
      exact .held text_eq somebody other (hsame.isDirectory _ ▸ there)
  | directory => exact .directory

end Decides

section Link

open FileAction

variable {c : Claims} {l : Location} {address : String} {t t' : FileTree} {content : ByteArray}
  {executable : Bool} {result : Except RegistryError Unit} {links : Nat}

theorem concat_ne_nil (l : Location) (name : String) : l ++ [name] ≠ [] := by simp

theorem Situated.of_same (h : c.Situated l address t) (hsame : t.SameDirectories t') :
    c.Situated l address t' :=
  ⟨h.owner, h.address, hsame.reaches h.reaches⟩

theorem Situated.pending_ne (h : c.Situated l address t) :
    l ++ [pendingName c.owner address] ≠ l ++ [address] := by
  simpa using pendingName_ne h.address c.owner address

theorem Situated.isName_pending (h : c.Situated l address t) :
    IsName (pendingName c.owner address) :=
  isName_pendingName h.owner h.address

theorem Situated.locate_pending (h : c.Situated l address t)
    (hfits : FileTree.Fits c.directory (pendingName c.owner address)) :
    t.locate (c.pendingPath address) = .ok (l ++ [pendingName c.owner address]) :=
  h.reaches.locate_child h.isName_pending hfits

/-- Where a pending claim fits, the claim does: its name is shorter. -/
theorem Situated.locate_claim (h : c.Situated l address t)
    (hfits : FileTree.Fits c.directory (pendingName c.owner address)) :
    t.locate (c.path address) = .ok (l ++ [address]) := by
  have hname := isName_of_isAddress h.address
  have hadded := size_pendingName c.owner address
  obtain ⟨hsize, hpath⟩ := hfits
  rw [Path.size_child h.isName_pending] at hpath
  refine h.reaches.locate_child hname ⟨by omega, ?_⟩
  rw [Path.size_child hname]
  omega

/-- A pending claim that has been written, and can be linked. -/
structure Pending (c : Claims) (l : Location) (address : String) (t : FileTree)
    (content : ByteArray) (executable : Bool) : Prop where
  situated : c.Situated l address t
  fits : FileTree.Fits c.directory (pendingName c.owner address)
  node : t.node? (l ++ [pendingName c.owner address]) = some (.file content executable)

theorem Pending.yields_free (h : c.Pending l address t content executable) (attempts : Nat)
    (hfree : t.node? (l ++ [address]) = none) :
    (c.linkPending address (attempts + 1)).Yields t 1 (.ok ())
      (t.put (l ++ [address]) (.file content executable)) := by
  have hlink : (FileOp.link (c.pendingPath address) (c.path address)).apply t =
      .ok (t.put (l ++ [address]) (.file content executable)) :=
    FileTree.link_of_free (h.situated.locate_pending h.fits) h.node
      (h.situated.locate_claim h.fits) hfree
  rw [linkPending]
  exact (yields_perform_ok hlink).bind (yields_pure _ _)

theorem isForeign_eq_false_iff {holder : String} :
    c.isForeign holder t = false ↔ holder = "" ∨ holder = c.owner ∨
      t.isDirectory (c.ownersRoot.join ⟨holder⟩) = false := by
  rw [isForeign]
  by_cases hself : holder = c.owner
  · simp [hself]
  · by_cases hempty : holder = ""
    · simp [hempty]
    · simp [hself, hempty]

/-- What is done about a claim that is there, once it is known whom it names. -/
def settleTaken (c : Claims) (address : String) (attempts : Nat) (holder : String)
    (foreign : Bool) : FileAction (Except RegistryError Unit) :=
  if foreign then pure (.error (.claimedElsewhere address holder))
  else do
    match ← perform (.unlink (c.path address)) with
    | .ok _ => c.linkPending address attempts
    | .error .noEntry => c.linkPending address attempts
    | .error e => pure (.error (.claim address e))

/-- Where there is a claim the attempt fails, and it is looked up whom the claim names. -/
theorem Pending.yields_taken (h : c.Pending l address t content executable) {attempts : Nat}
    {node : Node} (htaken : t.node? (l ++ [address]) = some node)
    (hsettle : (c.settleTaken address attempts (c.holder address t)
      (c.isForeign (c.holder address t) t)).Yields t links result t') :
    (c.linkPending address (attempts + 1)).Yields t (links + 1) result t' := by
  have hlink : (FileOp.link (c.pendingPath address) (c.path address)).apply t =
      .error .exists :=
    FileTree.link_of_taken (h.situated.locate_pending h.fits) h.node
      (h.situated.locate_claim h.fits) htaken
  have hforeign := (yields_observe (c.isForeign (c.holder address t)) t).bind hsettle
    (Nat.zero_add _)
  have hholder := (yields_observe (c.holder address) t).bind
    (f := fun holder => observe (c.isForeign holder) >>= c.settleTaken address attempts holder)
    hforeign (Nat.zero_add _)
  rw [linkPending]
  exact (yields_perform_error hlink).bind hholder (Nat.add_comm _ _)

theorem Pending.yields_held (h : c.Pending l address t content executable) (attempts : Nat)
    {node : Node} (htaken : t.node? (l ++ [address]) = some node)
    (hforeign : c.isForeign (c.holder address t) t = true) :
    (c.linkPending address (attempts + 1)).Yields t 1
      (.error (.claimedElsewhere address (c.holder address t))) t := by
  apply h.yields_taken htaken
  rw [settleTaken, if_pos hforeign]
  exact yields_pure _ t

/-- A claim that names nobody who is still there is removed, and the next attempt finds none. -/
theorem Pending.yields_stale (h : c.Pending l address t content executable) (attempts : Nat)
    {claim : ByteArray} {runnable : Bool}
    (htaken : t.node? (l ++ [address]) = some (.file claim runnable))
    (hforeign : c.isForeign (c.holder address t) t = false) :
    (c.linkPending address (attempts + 2)).Yields t 2 (.ok ())
      ((t.erase (l ++ [address])).put (l ++ [address]) (.file content executable)) := by
  have hne := concat_ne_nil l address
  have hunlink : (FileOp.unlink (c.path address)).apply t = .ok (t.erase (l ++ [address])) :=
    FileTree.unlink_of_locate (h.situated.locate_claim h.fits) htaken
  have herased : c.Pending l address (t.erase (l ++ [address])) content executable := by
    refine ⟨h.situated.of_same (.erase (by simp [htaken])), h.fits, ?_⟩
    rw [FileTree.node?_erase_of_ne hne, if_neg h.situated.pending_ne, h.node]
  have hfree : (t.erase (l ++ [address])).node? (l ++ [address]) = none := by
    rw [FileTree.node?_erase_of_ne hne, if_pos rfl]
  apply h.yields_taken htaken
  rw [settleTaken, hforeign, if_neg Bool.false_ne_true]
  exact (yields_perform_ok hunlink).bind (herased.yields_free attempts hfree)

theorem Pending.yields_directory (h : c.Pending l address t content executable) (attempts : Nat)
    (htaken : t.node? (l ++ [address]) = some .directory) :
    (c.linkPending address (attempts + 1)).Yields t 1
      (.error (.claim address .isDirectory)) t := by
  have hlocate := h.situated.locate_claim h.fits
  have hunlink : (FileOp.unlink (c.path address)).apply t = .error .isDirectory := by
    change t.unlink (c.path address) = _
    rw [FileTree.unlink, hlocate]
    simp only [htaken]
  have hnobody : c.holder address t = "" := by
    rw [holder, FileTree.readText, FileTree.readBytes, FileTree.stat, hlocate]
    simp only [htaken]
  apply h.yields_taken htaken
  rw [settleTaken, hnobody, isForeign_eq_false_iff.mpr (.inl rfl), if_neg Bool.false_ne_true]
  exact (yields_perform_error hunlink).bind (yields_pure _ t)

/-- How linking a pending claim ends, and what becomes of the files. -/
structure LinkOutcome (c : Claims) (l : Location) (address : String) (t : FileTree)
    (claim : Node) (result : Except RegistryError Unit) (now : FileTree) : Prop where
  decides : c.Decides address t (t.node? (l ++ [address])) result
  same : t.SameDirectories now
  claimed : result = .ok () → now.node? (l ++ [address]) = some claim
  kept : result ≠ .ok () → now = t
  rest : ∀ m, m ≠ l ++ [address] → now.node? m = t.node? m

theorem holder_of_file (hlocate : t.locate (c.path address) = .ok l) {claim : ByteArray}
    {runnable : Bool} (hnode : t.node? l = some (.file claim runnable)) :
    c.holder address t = ((Text.strict? claim).map Text.trim).getD "" := by
  rw [holder, FileTree.readText, FileTree.readBytes, FileTree.stat, hlocate]
  simp only [hnode]
  cases Text.strict? claim with
  | none => rfl
  | some text => rfl

/-- A claim that holds a text names whom the text says. -/
theorem Situated.holder_of_names (h : c.Situated l address t)
    (hfits : FileTree.Fits c.directory (pendingName c.owner address)) {text : String}
    {runnable : Bool} (hnode : t.node? (l ++ [address]) = some (.file text.toUTF8 runnable)) :
    c.holder address t = Text.trim text := by
  rw [holder, FileTree.readText_of_locate (h.locate_claim hfits) hnode]

/-- A claim that names somebody else who is still there decides against the one who is claiming. -/
theorem decides_held {claim : ByteArray} {runnable : Bool}
    (hholder : c.holder address t = ((Text.strict? claim).map Text.trim).getD "")
    (hforeign : c.isForeign (c.holder address t) t = true) :
    c.Decides address t (some (.file claim runnable))
      (.error (.claimedElsewhere address (c.holder address t))) := by
  have hnot := mt isForeign_eq_false_iff.mpr (ne_false_of_eq_true hforeign)
  rw [not_or, not_or, Bool.not_eq_false] at hnot
  obtain ⟨hsomebody, hother, hthere⟩ := hnot
  cases htext : Text.strict? claim with
  | none =>
      rw [htext] at hholder
      exact absurd hholder hsomebody
  | some text =>
      rw [htext, Option.map_some, Option.getD_some] at hholder
      rw [hholder] at hsomebody hother hthere ⊢
      exact .held htext hsomebody hother hthere

/-- Any other claim that is a file is decided in favour of the one who is claiming. -/
theorem decides_stale {claim : ByteArray} {runnable : Bool}
    (hholder : c.holder address t = ((Text.strict? claim).map Text.trim).getD "")
    (hforeign : c.isForeign (c.holder address t) t = false) :
    c.Decides address t (some (.file claim runnable)) (.ok ()) := by
  cases htext : Text.strict? claim with
  | none => exact .unreadable htext
  | some text =>
      rw [htext, Option.map_some, Option.getD_some] at hholder
      rw [hholder] at hforeign
      rcases isForeign_eq_false_iff.mp hforeign with hnobody | hself | hmissing
      · exact .blank htext hnobody
      · exact .ours htext hself
      · exact .gone htext hmissing

/-- At most two attempts are made, and what was found at the claim says how they end. -/
theorem Pending.exists_outcome (h : c.Pending l address t content executable) :
    ∃ links ≤ 2, ∃ result now, (c.linkPending address 3).Yields t links result now ∧
      c.LinkOutcome l address t (.file content executable) result now := by
  have hne := concat_ne_nil l address
  have hput : ∀ ready : FileTree, ready.node? (l ++ [address]) ≠ some .directory →
      t.SameDirectories ready → (∀ m, m ≠ l ++ [address] → ready.node? m = t.node? m) →
      c.Decides address t (t.node? (l ++ [address])) (.ok ()) →
      c.LinkOutcome l address t (.file content executable) (.ok ())
        (ready.put (l ++ [address]) (.file content executable)) := by
    intro ready hfree hsame hrest hdecides
    refine ⟨hdecides, hsame.trans (.put_file hfree _ _), fun _ => ?_, fun hfailed => ?_,
      fun m hm => ?_⟩
    · rw [FileTree.node?_put_of_ne hne, if_pos rfl]
    · exact absurd rfl hfailed
    · rw [FileTree.node?_put_of_ne hne, if_neg hm, hrest m hm]
  have hfailed : ∀ e, c.Decides address t (t.node? (l ++ [address])) (.error e) →
      c.LinkOutcome l address t (.file content executable) (.error e) t :=
    fun e hdecides => ⟨hdecides, .refl t, fun hok => (by cases hok), fun _ => rfl, fun _ _ => rfl⟩
  cases hnode : t.node? (l ++ [address]) with
  | none =>
      exact ⟨1, by decide, _, _, h.yields_free 2 hnode,
        hput t (by simp [hnode]) (.refl t) (fun _ _ => rfl) (hnode ▸ .absent)⟩
  | some node =>
      cases node with
      | directory =>
          exact ⟨1, by decide, _, _, h.yields_directory 2 hnode, hfailed _ (hnode ▸ .directory)⟩
      | file claim runnable =>
          have hholder := holder_of_file (h.situated.locate_claim h.fits) hnode
          cases hforeign : c.isForeign (c.holder address t) t with
          | true =>
              exact ⟨1, by decide, _, _, h.yields_held 2 hnode hforeign,
                hfailed _ (hnode ▸ decides_held hholder hforeign)⟩
          | false =>
              refine ⟨2, by decide, _, _, h.yields_stale 1 hnode hforeign, hput _ ?_ ?_ ?_ ?_⟩
              · simp [FileTree.node?_erase_of_ne hne]
              · exact .erase (by simp [hnode])
              · intro m hm
                rw [FileTree.node?_erase_of_ne hne, if_neg hm]
              · exact hnode ▸ decides_stale hholder hforeign

end Link

section Acquire

open FileAction

variable {c : Claims} {l : Location} {address : String} {t : FileTree}

/-- How claiming an address ends when the pending claim can be written: by what was found at the
claim.  The claim is ours or as it was, no pending claim is left, and all else is as it was. -/
structure Outcome (c : Claims) (l : Location) (address : String) (t : FileTree)
    (result : Except RegistryError Unit) (now : FileTree) : Prop where
  decides : ∀ r, r = result ↔ c.Decides address t (t.node? (l ++ [address])) r
  claimed : result = .ok () →
    ∃ executable, now.node? (l ++ [address]) = some (.file c.owner.toUTF8 executable)
  kept : result ≠ .ok () → now.node? (l ++ [address]) = t.node? (l ++ [address])
  pending : now.node? (l ++ [pendingName c.owner address]) = none
  rest : ∀ m, m ≠ l ++ [address] → m ≠ l ++ [pendingName c.owner address] →
    now.node? m = t.node? m
  same : t.SameDirectories now

theorem Situated.exists_pending (h : c.Situated l address t) (hwritable : c.Writable l address t) :
    ∃ executable,
      (FileOp.write (c.pendingPath address) c.owner.toUTF8).apply t =
        .ok (t.put (l ++ [pendingName c.owner address]) (.file c.owner.toUTF8 executable)) ∧
      c.Pending l address
        (t.put (l ++ [pendingName c.owner address]) (.file c.owner.toUTF8 executable))
        c.owner.toUTF8 executable := by
  have hne := concat_ne_nil l (pendingName c.owner address)
  obtain ⟨_, executable, hput⟩ := FileTree.update_of_locate (fun _ => c.owner.toUTF8)
    (h.locate_pending hwritable.fits) hwritable.free
  refine ⟨executable, hput, ?_, hwritable.fits, ?_⟩
  · exact h.of_same (.put_file hwritable.free _ _)
  · rw [FileTree.node?_put_of_ne hne, if_pos rfl]

/-- A pending claim that cannot be written is refused. -/
theorem Situated.write_error (h : c.Situated l address t) (hwritable : ¬c.Writable l address t) :
    ∃ e, (FileOp.write (c.pendingPath address) c.owner.toUTF8).apply t = .error e := by
  change ∃ e, t.update (c.directory.child (pendingName c.owner address)) _ = .error e
  rw [FileTree.update]
  cases hlocate : t.locate (c.directory.child (pendingName c.owner address)) with
  | error e => exact ⟨e, rfl⟩
  | ok m =>
      obtain ⟨_, hfits, hm⟩ := (FileTree.locate_child_eq_ok_iff h.isName_pending).mp hlocate
      rw [h.reaches.destination] at hm
      have hdirectory : t.node? m = some .directory := by
        by_contra hfree
        exact hwritable ⟨hfits, hm ▸ hfree⟩
      simp only [hdirectory]
      exact ⟨_, rfl⟩

theorem Situated.exists_outcome (h : c.Situated l address t)
    (hwritable : c.Writable l address t) :
    ∃ links ≤ 2, ∃ result now, (c.acquire address).Yields t links result now ∧
      c.Outcome l address t result now := by
  obtain ⟨executable, hwrite, hpending⟩ := h.exists_pending hwritable
  obtain ⟨links, hlinks, result, linked, hyields, hlinked⟩ := hpending.exists_outcome
  generalize hready : t.put (l ++ [pendingName c.owner address])
    (.file c.owner.toUTF8 executable) = ready at hwrite hpending hyields hlinked
  have hne := concat_ne_nil l (pendingName c.owner address)
  have hsame : t.SameDirectories ready := hready ▸ .put_file hwritable.free _ _
  have hrest : ∀ m, m ≠ l ++ [pendingName c.owner address] → ready.node? m = t.node? m := by
    intro m hm
    rw [← hready, FileTree.node?_put_of_ne hne, if_neg hm]
  have hclaim := hrest _ h.pending_ne.symm
  have hwritten : linked.node? (l ++ [pendingName c.owner address]) =
      some (.file c.owner.toUTF8 executable) := by
    rw [hlinked.rest _ h.pending_ne, hpending.node]
  have hunlink : (FileOp.unlink (c.pendingPath address)).apply linked =
      .ok (linked.erase (l ++ [pendingName c.owner address])) :=
    FileTree.unlink_of_locate
      ((hpending.situated.of_same hlinked.same).locate_pending hwritable.fits) hwritten
  have herased : ∀ m, m ≠ l ++ [pendingName c.owner address] →
      (linked.erase (l ++ [pendingName c.owner address])).node? m = linked.node? m := by
    intro m hm
    rw [FileTree.node?_erase_of_ne hne, if_neg hm]
  refine ⟨links, hlinks, result, linked.erase (l ++ [pendingName c.owner address]), ?_, ?_⟩
  · have hremoved := (yields_perform_ok hunlink).bind (f := fun _ => pure result)
      (yields_pure result _)
    have hcleaned := hyields.bind
      (f := fun result => perform (.unlink (c.pendingPath address)) >>= fun _ => pure result)
      hremoved (Nat.add_zero _)
    rw [acquire]
    exact (yields_perform_ok hwrite).bind hcleaned (Nat.zero_add _)
  · have hdecides := hlinked.decides.congr hsame
    rw [hclaim] at hdecides
    refine ⟨fun r => ⟨fun heq => heq ▸ hdecides, fun hr => hr.unique hdecides⟩, fun hok => ?_,
      fun hfailed => ?_, ?_, fun m hm hm' => ?_, ?_⟩
    · exact ⟨executable, by rw [herased _ h.pending_ne.symm, hlinked.claimed hok]⟩
    · rw [herased _ h.pending_ne.symm, hlinked.kept hfailed, hclaim]
    · rw [FileTree.node?_erase_of_ne hne, if_pos rfl]
    · rw [herased m hm', hlinked.rest m hm, hrest m hm']
    · exact (hsame.trans hlinked.same).trans (.erase (by simp [hwritten]))

/-- Where the pending claim cannot be written nothing is done at all. -/
theorem Situated.refused (h : c.Situated l address t) (hwritable : ¬c.Writable l address t) :
    ∃ e, (c.acquire address).Yields t 0 (.error (.claim address e)) t := by
  obtain ⟨e, herror⟩ := h.write_error hwritable
  refine ⟨e, ?_⟩
  rw [acquire]
  exact (yields_perform_error herror).bind (yields_pure _ t)

end Acquire

end Claims

/-- How claiming ends.  Whatever there is at the claim of an address and wherever its directory is: at
most two attempts to link are made, and no more than that.  When the pending claim can be written the
claim is had exactly if it is absent or a file that is no text, names nobody, names the one who is
claiming, or names somebody whose directory is gone; then it holds the name of the new owner.
Otherwise the refusal tells the holder, or that a directory is in the way, and the claim is as it was.
No pending claim is left, and nothing else has changed.  When it cannot be written nothing happens at
all.  A registry that is refused a context has the same live generations, and gives out the same next
ones. -/
theorem Claims.claiming_ends_in_two_attempts (c : Claims) (l : Location) (address : String)
    (t : FileTree) (howner : isAddress c.owner = true) (haddress : isAddress address = true)
    (hreaches : t.Reaches c.directory l) :
    (c.acquire address).links t ≤ 2 ∧
    (∃ result now, (c.acquire address).run t = (result, now) ∧
      (c.Writable l address t → c.Outcome l address t result now) ∧
      (¬c.Writable l address t → now = t ∧ ∃ e, result = .error (.claim address e)) ∧
      ∀ r : Registry, r.claims = some c → r.liveGeneration address = none →
        ((r.openContext address).run t).1.1 = result.map (fun _ => r.lastGeneration address + 1) ∧
        ((r.openContext address).run t).2 = now) ∧
    ∀ (r r' : Registry) (e : RegistryError) (now : FileTree),
      (r.openContext address).run t = ((.error e, r'), now) → ∀ other,
        r'.liveGeneration other = r.liveGeneration other ∧
        ∀ later generation, ((r'.openContext other).run later).1.1 = .ok generation →
          generation = r.lastGeneration other + 1 := by
  have hsituated : c.Situated l address t := ⟨howner, haddress, hreaches⟩
  have hopened : ∀ result now, (c.acquire address).run t = (result, now) →
      ∀ r : Registry, r.claims = some c → r.liveGeneration address = none →
        ((r.openContext address).run t).1.1 = result.map (fun _ => r.lastGeneration address + 1) ∧
        ((r.openContext address).run t).2 = now := by
    intro result now hrun r hclaims hlive
    have hclaim : r.claim address = c.acquire address := by rw [Registry.claim, hclaims]
    rw [Registry.openContext, hlive]
    dsimp only
    rw [hclaim, FileAction.run_bind, hrun]
    cases result with
    | error e => exact ⟨rfl, rfl⟩
    | ok _ => exact ⟨rfl, rfl⟩
  refine ⟨?_, ?_, ?_⟩
  · by_cases hwritable : c.Writable l address t
    · obtain ⟨links, hlinks, _, _, hyields, _⟩ := hsituated.exists_outcome hwritable
      rwa [hyields.links]
    · obtain ⟨e, hyields⟩ := hsituated.refused hwritable
      rw [hyields.links]
      exact Nat.zero_le 2
  · by_cases hwritable : c.Writable l address t
    · obtain ⟨_, _, result, now, hyields, houtcome⟩ := hsituated.exists_outcome hwritable
      exact ⟨result, now, hyields.run, fun _ => houtcome, absurd hwritable,
        hopened result now hyields.run⟩
    · obtain ⟨e, hyields⟩ := hsituated.refused hwritable
      exact ⟨_, t, hyields.run, fun h => absurd h hwritable, fun _ => ⟨rfl, e, rfl⟩,
        hopened _ t hyields.run⟩
  · intro r r' e now hrun other
    have hsame : r' = r := by
      have hrefused : ((r.openContext address).run t).1.1 = .error e := by rw [hrun]
      have hkept := Registry.openContext_error hrefused
      rw [hrun] at hkept
      exact hkept
    rw [hsame]
    exact ⟨rfl, fun later generation hlater => (Registry.openContext_ok hlater).2.1⟩

section Lamp

/-- Somebody who claims addresses. -/
def lampClaims : Claims := ⟨⟨".claims"⟩, ⟨"owners"⟩, "7-abc"⟩

/-- Nobody is there, and one more name is in the directory of the claims. -/
def claimsWith (name : String) (node : Node) : FileTree :=
  ⟨[], [(["owners"], .directory), ([".claims"], .directory), ([".claims", name], node)]⟩

/-- The claim of the lamp is left over. -/
theorem left_over_claim_is_had :
    ((lampClaims.acquire "lamp").run (claimsWith "lamp" (.file "8-xyz\n".toUTF8 false))).1 =
        .ok () ∧
      ∃ executable, ((lampClaims.acquire "lamp").run
        (claimsWith "lamp" (.file "8-xyz\n".toUTF8 false))).2.node? [".claims", "lamp"] =
          some (.file "7-abc".toUTF8 executable) := by
  have hreaches : (claimsWith "lamp" (.file "8-xyz\n".toUTF8 false)).Reaches
      lampClaims.directory [".claims"] :=
    ⟨by decide, ⟨rfl, by decide, trivial⟩, rfl, by decide⟩
  obtain ⟨-, ⟨result, now, hrun, houtcome, -⟩, -⟩ := Claims.claiming_ends_in_two_attempts
    lampClaims [".claims"] "lamp" _ (by decide) (by decide) hreaches
  have hended := houtcome ⟨by decide, by decide⟩
  have htext : Text.strict? "8-xyz\n".toUTF8 = some "8-xyz\n" := by decide +kernel
  have hresult : result = .ok () := by
    refine ((hended.decides _).mpr (.gone htext ?_)).symm
    decide +kernel
  rw [hrun]
  exact ⟨hresult, hended.claimed hresult⟩

open Commons (longAddress toList_longAddress isAddress_longAddress)

theorem not_writable_longAddress (t : FileTree) :
    ¬lampClaims.Writable [".claims"] longAddress t := by
  intro h
  have hsize := h.fits.1
  have howner : lampClaims.owner.utf8ByteSize = 5 := by decide
  rw [Claims.size_pendingName, utf8ByteSize_of_isAddress isAddress_longAddress,
    ← String.length_toList, toList_longAddress, List.length_replicate, howner,
    FileTree.nameLimit] at hsize
  omega

/-- A claim that is absent is not had if the pending claim would have too long a name, or if that is
the name of a directory; and a claim that names no directory below that of the owners is not had if
the name leads to a directory elsewhere. -/
theorem free_claims_may_be_refused :
    (isAddress longAddress = true ∧ isAddress lampClaims.owner = true ∧
      (claimsWith "lamp" .directory).node? [".claims", longAddress] = none ∧
      ∃ e, ((lampClaims.acquire longAddress).run (claimsWith "lamp" .directory)).1 =
        .error (.claim longAddress e)) ∧
    ((claimsWith ".7-abc-lamp" .directory).node? [".claims", "lamp"] = none ∧
      ((lampClaims.acquire "lamp").run (claimsWith ".7-abc-lamp" .directory)).1 =
        .error (.claim "lamp" .isDirectory)) ∧
    (claimsWith "lamp" (.file "/".toUTF8 false)).children ["owners"] = [] ∧
    ((lampClaims.acquire "lamp").run (claimsWith "lamp" (.file "/".toUTF8 false))).1 =
      .error (.claimedElsewhere "lamp" "/") := by
  have hreaches : (claimsWith "lamp" .directory).Reaches lampClaims.directory [".claims"] :=
    ⟨by decide, ⟨rfl, by decide, trivial⟩, rfl, by decide⟩
  have hsituated :
      lampClaims.Situated [".claims"] longAddress (claimsWith "lamp" .directory) :=
    ⟨by decide, isAddress_longAddress, hreaches⟩
  have hother : "lamp" ≠ longAddress := by
    intro h
    have hlength := congrArg List.length (congrArg String.toList h)
    rw [toList_longAddress, List.length_replicate] at hlength
    exact absurd hlength (by decide)
  obtain ⟨e, hyields⟩ := hsituated.refused (not_writable_longAddress _)
  refine ⟨⟨isAddress_longAddress, by decide, ?_, e, by rw [hyields.run]⟩, by decide +kernel⟩
  simp [claimsWith, FileTree.node?, Table.get?, hother]

end Lamp

end Automation
