import Automation.Files.Action
import Automation.Table
import Automation.Text.Blank

/-
Which contexts are live.

Every address has a counter of generations.  Opening a context takes the next generation and makes
it the live one; closing it retires it.  A caller checks that its generation is live before it
invokes anything, so what is left of an earlier generation is never invoked.

A registry with claims also holds one file for each live address, so that environments that share
a directory never run the same program at once.  A claim names the snapshot directory of its
owner; a claim whose owner's directory is gone is left over and may be taken.
-/

namespace Automation

/-- The number of a context among those of its address. -/
abbrev Generation := Nat

/-- Why a context cannot be opened. -/
inductive RegistryError where
  | alreadyLive (address : String) (generation : Generation)
  | claimedElsewhere (address owner : String)
  | claim (address : String) (e : OsError)
deriving Repr, DecidableEq

/-- The wording of a refusal. -/
def RegistryError.message : RegistryError → String
  | .alreadyLive address generation =>
      "program " ++ address ++ " already has live context generation " ++ toString generation
  | .claimedElsewhere address owner =>
      "program " ++ address ++ " is running in another environment (" ++ owner ++ ")"
  | .claim address e => "claim program " ++ address ++ ": " ++ e.message

/-- The claims of one owner. -/
structure Claims where
  directory : Path
  /-- The directory with one directory for each owner. -/
  ownersRoot : Path
  owner : String
deriving Repr, DecidableEq

namespace Claims

/-- The claim of an address. -/
def path (c : Claims) (address : String) : Path := c.directory.join ⟨address⟩

/-- Where a claim is written before it gets its name. -/
def pendingPath (c : Claims) (address : String) : Path :=
  c.directory.join ⟨"." ++ c.owner ++ "-" ++ address⟩

/-- Who holds the claim of an address.  A claim that cannot be read names nobody. -/
def holder (c : Claims) (address : String) (t : FileTree) : String :=
  match t.readText (c.path address) with
  | .ok text => Text.trim text
  | .error _ => ""

/-- Whether a holder is somebody else who is still there. -/
def isForeign (c : Claims) (holder : String) (t : FileTree) : Bool :=
  holder != c.owner && !holder.isEmpty && t.isDirectory (c.ownersRoot.join ⟨holder⟩)

/-- Give the pending claim its name, and take a claim that is left over out of the way.  Once that
is done the next attempt succeeds. -/
def linkPending (c : Claims) (address : String) :
    Nat → FileAction (Except RegistryError Unit)
  | 0 => pure (.error (.claim address .exists))
  | attempts + 1 => do
      match ← FileAction.perform (.link (c.pendingPath address) (c.path address)) with
      | .ok _ => pure (.ok ())
      | .error .exists =>
          let holder ← FileAction.observe (c.holder address)
          if ← FileAction.observe (c.isForeign holder) then
            pure (.error (.claimedElsewhere address holder))
          else
            match ← FileAction.perform (.unlink (c.path address)) with
            | .ok _ => c.linkPending address attempts
            | .error .noEntry => c.linkPending address attempts
            | .error e => pure (.error (.claim address e))
      | .error e => pure (.error (.claim address e))

/-- Claim an address.  The claim is written aside and linked to its name, so that a claim that can
be seen always names its owner. -/
def acquire (c : Claims) (address : String) : FileAction (Except RegistryError Unit) := do
  match ← FileAction.perform (.write (c.pendingPath address) c.owner.toUTF8) with
  | .error e => pure (.error (.claim address e))
  | .ok _ =>
      let result ← c.linkPending address 3
      let _ ← FileAction.perform (.unlink (c.pendingPath address))
      pure result

/-- Give up the claim of an address, if it is ours. -/
def release (c : Claims) (address : String) : FileAction Unit := do
  if ← FileAction.observe fun t =>
      match t.readText (c.path address) with
      | .ok text => Text.trim text == c.owner
      | .error _ => false then
    let _ ← FileAction.perform (.unlink (c.path address))

end Claims

/-- The generations of one address: the last one given out, and the live one. -/
structure Generations where
  last : Generation
  live : Option Generation
deriving Repr, DecidableEq

/-- The generations of all addresses, and the claims that go with the live ones. -/
structure Registry where
  slots : Table String Generations
  claims : Option Claims
deriving Repr, DecidableEq

namespace Registry

/-- A registry of contexts that nobody else knows about. -/
def unshared : Registry := ⟨[], none⟩

/-- A registry that claims the addresses of its live contexts. -/
def withClaims (claims : Claims) : Registry := ⟨[], some claims⟩

/-- The generations of an address; one never opened has none. -/
def slot (r : Registry) (address : String) : Generations :=
  (Table.get? address r.slots).getD ⟨0, none⟩

/-- Set the generations of an address. -/
def setSlot (r : Registry) (address : String) (s : Generations) : Registry :=
  { r with slots := Table.put address s r.slots }

/-- The live generation of an address. -/
def liveGeneration (r : Registry) (address : String) : Option Generation :=
  (r.slot address).live

def isLive (r : Registry) (address : String) (generation : Generation) : Bool :=
  r.liveGeneration address == some generation

theorem slot_setSlot (r : Registry) (address other : String) (s : Generations) :
    (r.setSlot address s).slot other = if other = address then s else r.slot other := by
  by_cases h : other = address <;> simp [setSlot, slot, Table.get?_put, h]

theorem isLive_iff (r : Registry) (address : String) (generation : Generation) :
    r.isLive address generation = true ↔ r.liveGeneration address = some generation := by
  simp [isLive]

/-- Claim an address, when addresses are claimed at all. -/
def claim (r : Registry) (address : String) : FileAction (Except RegistryError Unit) :=
  match r.claims with
  | some claims => claims.acquire address
  | none => pure (.ok ())

/-- Give up the claim of an address. -/
def unclaim (r : Registry) (address : String) : FileAction Unit :=
  match r.claims with
  | some claims => claims.release address
  | none => pure ()

/-- Take the next generation of an address and make it live. -/
def openContext (r : Registry) (address : String) :
    FileAction (Except RegistryError Generation × Registry) :=
  match r.liveGeneration address with
  | some generation => pure (.error (.alreadyLive address generation), r)
  | none => do
      match ← r.claim address with
      | .error e => pure (.error e, r)
      | .ok _ =>
          let next := (r.slot address).last + 1
          pure (.ok next, r.setSlot address ⟨next, some next⟩)

/-- Retire a generation.  One that is not live is retired already. -/
def closeContext (r : Registry) (address : String) (generation : Generation) :
    FileAction Registry :=
  if r.isLive address generation then do
    r.unclaim address
    pure (r.setSlot address ⟨(r.slot address).last, none⟩)
  else pure r

end Registry

end Automation
