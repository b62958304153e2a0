import Automation.Loading.Basic

/-
A loader that plays a script: all of its entries answer as one shared script says, and every call
is kept.
-/

namespace Automation

/-- What the entries of a scripted loader do, and what has been asked of them. -/
structure LoadScript where
  setupReturns : Bool
  runFault : Option ScriptFault
  resetFault : Option ScriptFault
  bindingFailure : Option String
  supportsReset : Bool
  /-- The number of entries bound. -/
  binds : Nat
  /-- Entries up to this number are broken. -/
  brokenThrough : Nat
  calls : List String

/-- The script that nothing is said about. -/
def LoadScript.standard : LoadScript :=
  { setupReturns := true
    runFault := none
    resetFault := none
    bindingFailure := none
    supportsReset := true
    binds := 0
    brokenThrough := 0
    calls := [] }

namespace LoadScript

/-- Keep a call. -/
def record (call : String) (s : LoadScript) : LoadScript :=
  { s with calls := s.calls ++ [call] }

/-- Break the entries bound so far. -/
def breakEntries (s : LoadScript) : LoadScript := { s with brokenThrough := s.binds }

end LoadScript

/-- An entry of a scripted loader. -/
structure ScriptedEntry where
  /-- The number of the loader whose script it plays. -/
  loader : Nat
  /-- The bytes it was made of, as text. -/
  image : String
  number : Nat

namespace ScriptedEntry

variable {τ : Type}

/-- What a scripted entry can do.  The script of each loader is in a part of the world. -/
def capabilities (part : Nat → Part τ LoadScript) : Capabilities τ ScriptedEntry where
  setHost entry host address :=
    Act.outside (part entry.loader) fun s =>
      ((.ok (), entry), s.record ("set_host " ++ host ++ " " ++ address))
  setup entry :=
    Act.outside (part entry.loader) fun s => ((.ok ⟨s.setupReturns, .null⟩, entry), s.record "setup")
  run entry options :=
    Act.outside (part entry.loader) fun s =>
      let result := match s.runFault with
        | some fault => .error fault
        | none =>
            .ok ⟨true, .object [("image", .text entry.image), ("options", .text options)]⟩
      ((result, entry), s.record ("run " ++ options))
  reset entry :=
    Act.outside (part entry.loader) fun s =>
      let result := match s.resetFault with
        | some fault => .error fault
        | none => .ok ()
      ((result, entry), s.record "reset")
  supportsReset entry w := ((part entry.loader).get w.outside).supportsReset
  isUsable entry w := ((part entry.loader).get w.outside).brokenThrough < entry.number
  release _ := pure ()

end ScriptedEntry

/-- Bind an entry, unless the script says that binding fails. -/
def LoadScript.bind (loader : Nat) (request : BindRequest) (s : LoadScript) :
    Except BindingError ScriptedEntry × LoadScript :=
  match s.bindingFailure with
  | some text => (.error (.reported text), s)
  | none =>
      let number := s.binds + 1
      (.ok ⟨loader, Text.lossy request.image.bytes, number⟩, { s with binds := number })

/-- The loader that plays the script of its number. -/
def UnitLoader.scripted {τ : Type} (part : Nat → Part τ LoadScript) (loader : Nat) :
    UnitLoader τ ScriptedEntry where
  capabilities := ScriptedEntry.capabilities part
  bind request := Act.outside (part loader) (LoadScript.bind loader request)

end Automation
