import Automation.Loading.Message
import Automation.Registry
import Automation.World

/-
Loaded units and what can be asked of them.

A loader turns the image of an artifact into an entry.  Every entry has the same capabilities,
whatever keeps the unit apart from its engine.  What is known of an entry may change with every
call, so a call answers with the entry to go on with.
-/

namespace Automation

/-- All that a loader needs to bind one generation of a unit. -/
structure BindRequest where
  address : String
  generation : Generation
  image : ArtifactImage
  entryType : String
  host : String
deriving DecidableEq

/-- Why a unit did not answer. -/
inductive ExchangeError where
  /-- An earlier call failed, so an answer could belong to another question. -/
  | outOfSync
  | write (e : OsError)
  | read (e : OsError)
  | exited
  | malformed (e : DecodeError)
deriving Repr, DecidableEq

/-- The wording of it. -/
def ExchangeError.message : ExchangeError → String
  | .outOfSync => "program unit is out of sync with the engine"
  | .write e => "write request: " ++ e.message
  | .read e => "read response: " ++ e.message
  | .exited => "program unit exited"
  | .malformed e => "parse response: " ++ e.message

/-- Why a unit cannot be bound. -/
inductive BindingError where
  | snapshot (e : OsError)
  | spawn (e : OsError)
  | entryTypeMismatch (expected found : String)
  | missingCapability (name : String)
  | exchange (e : ExchangeError)
  /-- The unit answered, but with something else. -/
  | notBound (reply : Reply)
  | reported (text : String)
  | hostRejected (fault : ScriptFault)
deriving Repr

/-- The wording of a binding error. -/
def BindingError.message : BindingError → String
  | .snapshot e => "start program unit: write snapshot: " ++ e.message
  | .spawn e => "start program unit: " ++ e.message
  | .entryTypeMismatch expected found =>
      "entry type " ++ Text.quoted found ++ " does not match " ++ Text.quoted expected
  | .missingCapability name => "entry type does not expose \x60" ++ name ++ "\x60"
  | .exchange e => "program unit protocol error: " ++ e.message
  | .notBound reply => "program unit protocol error: expected bound, got " ++ reply.shown
  | .reported text => "program unit protocol error: " ++ text
  | .hostRejected fault => "set_host failed: " ++ fault.message

/-- What can be asked of the entries of a kind, in a world. -/
structure Capabilities (τ ε : Type) where
  setHost : ε → (host address : String) → Act τ (Except ScriptFault Unit × ε)
  setup : ε → Act τ (Except ScriptFault MethodRunResult × ε)
  run : ε → (options : String) → Act τ (Except ScriptFault MethodRunResult × ε)
  reset : ε → Act τ (Except ScriptFault Unit × ε)
  /-- Whether `reset` does anything. -/
  supportsReset : ε → World τ → Bool
  /-- Whether the entry still answers reliably. -/
  isUsable : ε → World τ → Bool
  /-- Give up an entry. -/
  release : ε → Act τ Unit

/-- What makes entries out of images. -/
structure UnitLoader (τ ε : Type) where
  capabilities : Capabilities τ ε
  /-- Find the entry of an image.  It is not told its host here. -/
  bind : BindRequest → Act τ (Except BindingError ε)

/-- Bind a unit and tell it its host.  An entry that minds its host is given up. -/
def UnitLoader.bindEntry {τ ε : Type} (loader : UnitLoader τ ε) (request : BindRequest) :
    Act τ (Except BindingError ε) := do
  match ← loader.bind request with
  | .error e => pure (.error e)
  | .ok entry =>
      match ← loader.capabilities.setHost entry request.host request.address with
      | (.ok _, entry) => pure (.ok entry)
      | (.error fault, entry) => do
          loader.capabilities.release entry
          pure (.error (.hostRejected fault))

/-- The capabilities of entries that are of one of two kinds. -/
def Capabilities.either {τ ε ε' : Type} (a : Capabilities τ ε) (b : Capabilities τ ε') :
    Capabilities τ (ε ⊕ ε') where
  setHost
    | .inl entry, host, address => do
        let (result, entry) ← a.setHost entry host address
        pure (result, .inl entry)
    | .inr entry, host, address => do
        let (result, entry) ← b.setHost entry host address
        pure (result, .inr entry)
  setup
    | .inl entry => do
        let (result, entry) ← a.setup entry
        pure (result, .inl entry)
    | .inr entry => do
        let (result, entry) ← b.setup entry
        pure (result, .inr entry)
  run
    | .inl entry, options => do
        let (result, entry) ← a.run entry options
        pure (result, .inl entry)
    | .inr entry, options => do
        let (result, entry) ← b.run entry options
        pure (result, .inr entry)
  reset
    | .inl entry => do
        let (result, entry) ← a.reset entry
        pure (result, .inl entry)
    | .inr entry => do
        let (result, entry) ← b.reset entry
        pure (result, .inr entry)
  supportsReset
    | .inl entry => a.supportsReset entry
    | .inr entry => b.supportsReset entry
  isUsable
    | .inl entry => a.isUsable entry
    | .inr entry => b.isUsable entry
  release
    | .inl entry => a.release entry
    | .inr entry => b.release entry

namespace UnitLoader

variable {τ ε ε' : Type}

/-- A loader whose entries are the first of two kinds. -/
def first (loader : UnitLoader τ ε) (others : Capabilities τ ε') : UnitLoader τ (ε ⊕ ε') where
  capabilities := loader.capabilities.either others
  bind request := do pure ((← loader.bind request).map .inl)

/-- A loader whose entries are the second of two kinds. -/
def second (others : Capabilities τ ε) (loader : UnitLoader τ ε') : UnitLoader τ (ε ⊕ ε') where
  capabilities := others.either loader.capabilities
  bind request := do pure ((← loader.bind request).map .inr)

end UnitLoader

end Automation
