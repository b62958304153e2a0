import Automation.Loading.Basic

/-
Units that run in processes of their own.

A unit is started from a private copy of its image, its snapshot, so the stable artifact can be
replaced while the unit runs.  The snapshot lives as long as the entry: it is removed when the
unit cannot be started or bound, and when the entry is given up.
-/

namespace Automation

/-- What the process of a unit is started with. -/
structure Launch where
  program : Path
  values : List (String × String)
deriving Repr, DecidableEq

/-- How processes are started and talked to in a world.  A process is known by a number. -/
structure Launcher (τ : Type) where
  start : Launch → Act τ (Except OsError Nat)
  /-- Write to the input of a process. -/
  send : Nat → String → Act τ (Except OsError Unit)
  /-- The next line of its output with its line feed; at the end of the output, nothing. -/
  receiveLine : Nat → Act τ (Except OsError String)
  /-- The number of lines that can be received before the end or a wait. -/
  waiting : Nat → World τ → Nat
  /-- End a process. -/
  stop : Nat → Act τ Unit

/-- The entry of a unit that runs in a process of its own. -/
structure IsolatedEntry where
  process : Nat
  snapshot : Path
  supportsReset : Bool
  /-- An exchange has failed, so answers may be out of step. -/
  broken : Bool
deriving Repr, DecidableEq

/-- The variable that tells a unit its address. -/
def addressVariable : String := "PROGENGINE_ADDRESS"

/-- The variable that tells a unit where its symbols are. -/
def symbolsVariable : String := "PROGENGINE_SYMBOLS"

/-- What every unit must be able to do. -/
def requiredCapabilities : List String := ["set_host", "setup", "run"]

/-- What a unit may be able to do. -/
def resetCapability : String := "reset"

namespace Snapshot

/-- The debug symbols next to a snapshot. -/
def symbolsPath (snapshot : Path) : Path := snapshot.append ".sym"

/-- The directory of the snapshots of an address. -/
def directory (shadowDir : Path) (address : String) : Path := shadowDir.join ⟨address⟩

/-- The snapshot of one generation of an address. -/
def path (shadowDir : Path) (extension address : String) (generation : Generation) : Path :=
  (directory shadowDir address).join ⟨toString generation ++ "." ++ extension⟩

/-- Do some steps until one is refused. -/
def steps : List FileOp → FileAction (Except OsError Unit)
  | [] => pure (.ok ())
  | op :: rest => do
      match ← FileAction.perform op with
      | .error e => pure (.error e)
      | .ok _ => steps rest

/-- The steps that write a snapshot into its directory. -/
def contentSteps (snapshot : Path) (image : ArtifactImage) : List FileOp :=
  [.write snapshot image.bytes, .setExecutable snapshot true] ++
    match image.debug with
    | some symbols => [.write (symbolsPath snapshot) symbols]
    | none => []

/-- Write the snapshot of a unit. -/
def write (shadowDir : Path) (extension : String) (request : BindRequest) :
    FileAction (Except OsError Path) := do
  let snapshot := path shadowDir extension request.address request.generation
  match ← FileAction.createDirectory (directory shadowDir request.address) with
  | .error e => pure (.error e)
  | .ok _ =>
      match ← steps (contentSteps snapshot request.image) with
      | .error e => pure (.error e)
      | .ok _ => pure (.ok snapshot)

/-- Remove a snapshot and its symbols, as far as they are there. -/
def remove (snapshot : Path) : FileAction Unit := do
  let _ ← FileAction.removeIfExists snapshot
  let _ ← FileAction.removeIfExists (symbolsPath snapshot)

/-- What the unit of a snapshot is started with. -/
def launch (snapshot : Path) (request : BindRequest) : Launch :=
  { program := snapshot
    values := (addressVariable, request.address) ::
      match request.image.debug with
      | some _ => [(symbolsVariable, (symbolsPath snapshot).text)]
      | none => [] }

end Snapshot

namespace IsolatedEntry

variable {τ : Type}

/-- Read lines up to the first one that is a reply. -/
def readReply (launcher : Launcher τ) (process : Nat) : Nat → Act τ (Except ExchangeError Reply)
  | 0 => pure (.error .exited)
  | lines + 1 => do
      match ← launcher.receiveLine process with
      | .error e => pure (.error (.read e))
      | .ok line =>
          if line = "" then pure (.error .exited)
          else
            match Reply.ofLine? (Text.trim line) with
            | none => readReply launcher process lines
            | some (.ok reply) => pure (.ok reply)
            | some (.error e) => pure (.error (.malformed e))

/-- Send a request and read its reply. -/
def exchange (launcher : Launcher τ) (process : Nat) (request : Request) :
    Act τ (Except ExchangeError Reply) := do
  match ← launcher.send process request.line with
  | .error e => pure (.error (.write e))
  | .ok _ => fun w => (readReply launcher process (launcher.waiting process w + 1)).run w

/-- Ask a unit.  After the first failure it is not asked any more. -/
def call (launcher : Launcher τ) (entry : IsolatedEntry) (request : Request) :
    Act τ (Except ExchangeError Reply × IsolatedEntry) := do
  if entry.broken then pure (.error .outOfSync, entry)
  else
    match ← exchange launcher entry.process request with
    | .error e => pure (.error e, { entry with broken := true })
    | .ok reply => pure (.ok reply, entry)

/-- The fault that stands for a reply of the wrong kind. -/
def unexpected (reply : Reply) : ScriptFault :=
  .ofMessage ("unexpected response " ++ reply.shown)

/-- The result in a reply. -/
def resultOf : Except ExchangeError Reply → Except ScriptFault MethodRunResult
  | .error e => .error (.ofMessage e.message)
  | .ok (.ok result) => .ok result
  | .ok (.fault fault) => .error fault
  | .ok reply => .error (unexpected reply)

/-- The success in a reply. -/
def successOf : Except ExchangeError Reply → Except ScriptFault Unit
  | .error e => .error (.ofMessage e.message)
  | .ok .done => .ok ()
  | .ok (.fault fault) => .error fault
  | .ok reply => .error (unexpected reply)

/-- Ask a unit for a result. -/
def invoke (launcher : Launcher τ) (entry : IsolatedEntry) (request : Request) :
    Act τ (Except ScriptFault MethodRunResult × IsolatedEntry) := do
  let (reply, entry) ← entry.call launcher request
  pure (resultOf reply, entry)

/-- Tell a unit something. -/
def command (launcher : Launcher τ) (entry : IsolatedEntry) (request : Request) :
    Act τ (Except ScriptFault Unit × IsolatedEntry) := do
  let (reply, entry) ← entry.call launcher request
  pure (successOf reply, entry)

/-- End the process of a unit and remove its snapshot. -/
def release (launcher : Launcher τ) (entry : IsolatedEntry) : Act τ Unit := do
  launcher.stop entry.process
  Act.files (Snapshot.remove entry.snapshot)

def capabilities (launcher : Launcher τ) : Capabilities τ IsolatedEntry where
  setHost entry host address := entry.command launcher (.setHost host address)
  setup entry := entry.invoke launcher .setup
  run entry options := entry.invoke launcher (.run options)
  reset entry := entry.command launcher .reset
  supportsReset entry _ := entry.supportsReset
  isUsable entry _ := !entry.broken
  release entry := entry.release launcher

/-- Check that what a unit says about itself is what was asked for. -/
def accept (request : BindRequest) (entry : IsolatedEntry) :
    Except ExchangeError Reply → Except BindingError IsolatedEntry
  | .error e => .error (.exchange e)
  | .ok (.bound found capabilities) =>
      if !request.entryType.toList.isSuffixOf found.toList then
        .error (.entryTypeMismatch request.entryType found)
      else
        match requiredCapabilities.find? fun name => !capabilities.contains name with
        | some missing => .error (.missingCapability missing)
        | none => .ok { entry with supportsReset := capabilities.contains resetCapability }
  | .ok reply => .error (.notBound reply)

/-- Ask a unit that has just been started for its entry. -/
def introduce (launcher : Launcher τ) (request : BindRequest) (process : Nat) (snapshot : Path) :
    Act τ (Except BindingError IsolatedEntry) := do
  let (reply, entry) ← call launcher ⟨process, snapshot, false, false⟩ .bind
  match accept request entry reply with
  | .ok entry => pure (.ok entry)
  | .error e =>
      entry.release launcher
      pure (.error e)

end IsolatedEntry

/-- The loader that starts every unit in a process of its own, from a snapshot below a directory. -/
def UnitLoader.isolated {τ : Type} (launcher : Launcher τ) (shadowDir : Path)
    (extension : String) : UnitLoader τ IsolatedEntry where
  capabilities := IsolatedEntry.capabilities launcher
  bind request := do
    match ← Act.files (Snapshot.write shadowDir extension request) with
    | .error e => pure (.error (.snapshot e))
    | .ok snapshot =>
        match ← launcher.start (Snapshot.launch snapshot request) with
        | .error e =>
            Act.files (Snapshot.remove snapshot)
            pure (.error (.spawn e))
        | .ok process => IsolatedEntry.introduce launcher request process snapshot

end Automation
