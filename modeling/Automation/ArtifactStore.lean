import Automation.Address
import Automation.Failure

/-
Compiled artifacts in the programs directory.

The stable artifact of an address is `<address>.<extension>`.  For every debug extension, a file
with the extension added and one with the extension in the artifact's place may hold its debug
symbols.  A compiler writes to a fresh name below `.staging/<address>`, from where `commit` moves
the artifact over the stable one: debug files first, the artifact last, so that an artifact never
becomes visible without its symbols or with those of another build.
-/

namespace Automation

/-- The content of an artifact, copied out of its files. -/
structure ArtifactImage where
  bytes : ByteArray
  debug : Option ByteArray
deriving DecidableEq

/-- Where artifacts are kept and what their files are called. -/
structure ArtifactStore where
  programsDir : Path
  extension : String
  debugExtensions : List String
deriving Repr, DecidableEq

/-- What a commit did to one debug file of the stable artifact: where the file that was there is
kept, and whether a staged one has taken its place. -/
structure DebugSwap where
  target : Path
  previous : Option Path
  installed : Bool
deriving Repr, DecidableEq

/-- Fresh names are made of these. -/
def nameDigits : List Char :=
  "0123456789ABCDEFGHIJKLMNOPQRSTUVWXYZabcdefghijklmnopqrstuvwxyz".toList

/-- The name of that many letters and digits with a number; numbers differ in their names as long
as the names are long enough. -/
def freshName : Nat → Nat → List Char
  | 0, _ => []
  | width + 1, n =>
      freshName width (n / nameDigits.length) ++
        [nameDigits.getD (n % nameDigits.length) '0']

/-- The first number, from a given one on, whose path is not taken, and that path.  There are
more numbers to try than files, so one of them is free. -/
def firstFree (path : Nat → Path) (t : FileTree) : Nat → Nat → Path × Nat
  | 0, n => (path n, n)
  | tries + 1, n =>
      if t.exists? (path n) then firstFree path t tries (n + 1) else (path n, n)

namespace ArtifactStore

/-- The directory below the programs directory where compilers write. -/
def stagingName : String := ".staging"

/-- The length of the names in it. -/
def stagedWidth : Nat := 16

def ofConfig (c : EngineConfig) : ArtifactStore :=
  ⟨c.programsDir, c.artifactExtension, c.debugExtensions⟩

/-- A text that names the files of a program, or the failure of one that cannot. -/
def checkAddress (address : String) : Except Failure Unit :=
  if isAddress address then .ok () else .error (.ofCause (.invalidAddress address))

/-- A directory with all those above it. -/
def createDirectory (p : Path) : FileTask Unit :=
  FileTask.during (.createDirectory p) (FileAction.createDirectory p)

def ensureDirectories (s : ArtifactStore) : FileTask Unit :=
  createDirectory (s.programsDir.child stagingName)

/-- The stable artifact of an address. -/
def stablePath (s : ArtifactStore) (address : String) : Except Failure Path :=
  (checkAddress address).map fun _ => s.programsDir.child (address ++ "." ++ s.extension)

/-- The directory of the staged artifacts of an address. -/
def stagingDirectory (s : ArtifactStore) (address : String) : Except Failure Path :=
  (checkAddress address).map fun _ => (s.programsDir.child stagingName).child address

/-- A path in a directory of staged artifacts, by its number. -/
def stagedPath (s : ArtifactStore) (directory : Path) (n : Nat) : Path :=
  directory.child (String.ofList (freshName stagedWidth n) ++ "." ++ s.extension)

/-- A fresh path for one compile, and the number to go on with. -/
def stagingPath (s : ArtifactStore) (address : String) (n : Nat) : FileTask (Path × Nat) := do
  let directory ← FileTask.ofExcept (s.stagingDirectory address)
  createDirectory directory
  let (path, used) ← FileTask.observe fun t =>
    firstFree (s.stagedPath directory) t (t.entries.length + 1) n
  pure (path, used + 1)

/-- Every path that may hold the debug symbols of an artifact, two for each extension. -/
def debugVariants (s : ArtifactStore) (artifact : Path) : List Path :=
  s.debugExtensions.flatMap fun extension =>
    [artifact.append ("." ++ extension), artifact.withExtension extension]

/-- Whether an address has a stable artifact. -/
def hasArtifact (s : ArtifactStore) (address : String) (t : FileTree) : Bool :=
  match s.stablePath address with
  | .ok path => t.isFile path
  | .error _ => false

/-- Move the debug file at `target` out of the way, if there is one.  The answer is where it is
kept. -/
def setAside (target kept : Path) : FileTask (Option Path) := do
  if ← FileTask.observe (·.isFile target) then
    FileTask.during (.setAsideDebugFile target) (FileAction.perform (.rename target kept))
    pure (some kept)
  else pure none

/-- Move staged debug files over the stable ones, one pair after the other.  The answer tells what
has been done, up to the first pair that failed. -/
def swapDebugFiles (aside : Path) :
    Nat → List (Path × Path) → FileAction (List DebugSwap × Except Failure Unit)
  | _, [] => pure ([], .ok ())
  | i, (staged, target) :: rest => do
      match ← (setAside target (aside.child (toString i))).run with
      | .error f => pure ([], .error f)
      | .ok previous =>
          if ← FileAction.observe (·.isFile staged) then
            match ← FileAction.perform (.rename staged target) with
            | .error e =>
                pure ([⟨target, previous, false⟩],
                  .error ⟨[.moveDebugFile staged target], .os e⟩)
            | .ok _ =>
                let (swaps, result) ← swapDebugFiles aside (i + 1) rest
                pure (⟨target, previous, true⟩ :: swaps, result)
          else
            let (swaps, result) ← swapDebugFiles aside (i + 1) rest
            pure (⟨target, previous, false⟩ :: swaps, result)

/-- Undo one swap as far as possible. -/
def restoreDebugFile (swap : DebugSwap) : FileAction Unit := do
  if swap.installed then
    let _ ← FileAction.removeIfExists swap.target
  match swap.previous with
  | none => pure ()
  | some previous =>
      let _ ← FileAction.perform (.rename previous swap.target)

/-- Undo swaps, the last one first. -/
def restoreDebugFiles (swaps : List DebugSwap) : FileAction Unit :=
  swaps.reverse.forM restoreDebugFile

/-- Move a staged artifact with its debug files over the stable one.  When a step fails, the swaps
made so far are undone. -/
def publish (s : ArtifactStore) (staged stable aside : Path) :
    FileAction (Except Failure Unit) := do
  let pairs := (s.debugVariants staged).zip (s.debugVariants stable)
  let (swaps, swapped) ← swapDebugFiles aside 0 pairs
  let result ← match swapped with
    | .error f => pure (.error f)
    | .ok _ =>
        (FileTask.during (.replaceArtifact stable)
          (FileAction.perform (.rename staged stable))).run
  match result with
  | .ok _ => pure (.ok ())
  | .error f => do
      restoreDebugFiles swaps
      pure (.error f)

/-- Where a commit keeps the debug files it replaces. -/
def asidePath (staged : Path) : Path := staged.append ".displaced"

/-- Replace the stable artifact of an address with a staged one. -/
def commit (s : ArtifactStore) (staged : Path) (address : String) : FileTask Unit := do
  let stable ← FileTask.ofExcept (s.stablePath address)
  if ← FileTask.observe (·.isFile staged) then
    let aside := asidePath staged
    createDirectory aside
    let result ← ExceptT.lift (s.publish staged stable aside)
    let _ ← ExceptT.lift (FileAction.perform (.removeTree aside))
    FileTask.ofExcept result
  else throw (.ofCause (.missingStaged staged))

/-- Remove a file, if it is there. -/
def removeIfExists (p : Path) : FileTask Unit :=
  FileTask.during (.remove p) (FileAction.removeIfExists p)

/-- Remove an artifact and all of its debug files. -/
def discard (s : ArtifactStore) (artifact : Path) : FileTask Unit := do
  removeIfExists artifact
  (s.debugVariants artifact).forM removeIfExists

/-- Remove the stable artifact of an address and all of its debug files. -/
def evict (s : ArtifactStore) (address : String) : FileTask Unit := do
  let stable ← FileTask.ofExcept (s.stablePath address)
  s.discard stable

/-- Remove what interrupted compiles of an address have left. -/
def cleanStaging (s : ArtifactStore) (address : String) : FileTask Unit := do
  let directory ← FileTask.ofExcept (s.stagingDirectory address)
  FileTask.during (.remove directory) do
    match ← FileAction.perform (.removeTree directory) with
    | .error .noEntry => pure (.ok ())
    | outcome => pure outcome

/-- The first debug file of an artifact among those with an extension added. -/
def readDebug (stable : Path) : List String → FileTask (Option ByteArray)
  | [] => pure none
  | extension :: rest => do
      let path := stable.append ("." ++ extension)
      if ← FileTask.observe (·.isFile path) then
        let bytes ← FileTask.inspect (.readDebugFile path) (·.readBytes path)
        pure (some bytes)
      else readDebug stable rest

/-- Read the stable artifact of an address and its debug symbols. -/
def read (s : ArtifactStore) (address : String) : FileTask ArtifactImage := do
  let stable ← FileTask.ofExcept (s.stablePath address)
  let bytes ← FileTask.inspect (.readArtifact stable) (·.readBytes stable)
  let debug ← readDebug stable s.debugExtensions
  pure ⟨bytes, debug⟩

end ArtifactStore

end Automation
