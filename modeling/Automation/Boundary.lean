import Automation.Config.Basic
import Automation.Json.Decode
import Automation.LineOffsets
import Automation.ProgramBlock

/-
The JSON forms of the types that cross a boundary.

Writing names every field, in the order of the type.  Reading accepts what `Record` accepts; a
field with a value of its own may be left out.
-/

namespace Automation

open Document (asText asBoolean asInteger asNatural asList asOptional asJson)

/-- Set a part of what is known of a record to what a document holds. -/
def setField {α ρ : Type} (read : Document → Decoded α) (put : α → ρ → ρ)
    (document : Document) (known : ρ) : Decoded ρ :=
  (read document).map fun value => put value known

namespace CodeBlock

def toJson (b : CodeBlock) : Json := .text b.tag

def ofTag (tag : String) : Decoded CodeBlock :=
  if tag = mainBody.tag then .ok .mainBody
  else if tag = triggerCondition.tag then .ok .triggerCondition
  else .error (.unknownVariant tag [mainBody.tag, triggerCondition.tag])

/-- A block is its tag, alone or as the only member of an object that says nothing about it. -/
def ofDocument : Document → Decoded CodeBlock
  | .text (some tag) => ofTag tag
  | .object [(some tag, .null)] => ofTag tag
  | document => document.refuse "a block"

end CodeBlock

namespace RawDiagnostic

def toJson (d : RawDiagnostic) : Json :=
  .object
    [ ("line", .integer d.line), ("column", .integer d.column), ("message", .text d.message)
    , ("code", .text d.code), ("warning", .boolean d.warning) ]

/-- A diagnostic is read into its message, if there is one, and everything else. -/
def record : Record (Option String × RawDiagnostic) where
  title := "struct RawDiagnostic"
  fields :=
    [ ("line", setField asInteger fun n (m, d) => (m, { d with line := n }))
    , ("column", setField asInteger fun n (m, d) => (m, { d with column := n }))
    , ("message", setField asText fun s (_, d) => (some s, { d with message := s }))
    , ("code", setField asText fun s (m, d) => (m, { d with code := s }))
    , ("warning", setField asBoolean fun b (m, d) => (m, { d with warning := b })) ]

def ofDocument (document : Document) : Decoded RawDiagnostic :=
  match record.read (none, ⟨0, 0, "", "", false⟩) document with
  | .error e => .error e
  | .ok ((message, d), _) => (Record.required "message" message).map fun _ => d

end RawDiagnostic

namespace ProgramError

def toJson (e : ProgramError) : Json :=
  .object
    [ ("line", .integer e.line), ("column", .integer e.column)
    , ("error_message", .text e.message), ("error_number", .text e.number)
    , ("code_block", e.block.toJson) ]

/-- The fields of an error that have been read. -/
structure Draft where
  line : Option Int
  column : Option Int
  message : Option String
  number : Option String
  block : Option CodeBlock

def record : Record Draft where
  title := "struct ProgramError"
  fields :=
    [ ("line", setField asInteger fun n d => { d with line := some n })
    , ("column", setField asInteger fun n d => { d with column := some n })
    , ("error_message", setField asText fun s d => { d with message := some s })
    , ("error_number", setField asText fun s d => { d with number := some s })
    , ("code_block", setField CodeBlock.ofDocument fun b d => { d with block := some b }) ]

def ofDocument (document : Document) : Decoded ProgramError := do
  let (draft, _) ← record.read ⟨none, none, none, none, none⟩ document
  let line ← Record.required "line" draft.line
  let column ← Record.required "column" draft.column
  let message ← Record.required "error_message" draft.message
  let number ← Record.required "error_number" draft.number
  let block ← Record.required "code_block" draft.block
  pure ⟨line, column, message, number, block⟩

end ProgramError

namespace StackFrame

def toJson (frame : StackFrame) : Json :=
  .object [("type", .ofText? frame.declaringType), ("line", .integer frame.line)]

def record : Record StackFrame where
  title := "struct StackFrame"
  fields :=
    [ ("type", setField (asOptional asText) fun t frame => { frame with declaringType := t })
    , ("line", setField asInteger fun n frame => { frame with line := n }) ]

def ofDocument (document : Document) : Decoded StackFrame :=
  (record.read ⟨none, 0⟩ document).map Prod.fst

end StackFrame

namespace ScriptFault

def toJson (fault : ScriptFault) : Json :=
  .object
    [("message", .text fault.message), ("frames", .array (fault.frames.map StackFrame.toJson))]

def record : Record (Option String × List StackFrame) where
  title := "struct ScriptFault"
  fields :=
    [ ("message", setField asText fun s (_, frames) => (some s, frames))
    , ("frames", setField (asList StackFrame.ofDocument) fun frames (m, _) => (m, frames)) ]

def ofDocument (document : Document) : Decoded ScriptFault :=
  match record.read (none, []) document with
  | .error e => .error e
  | .ok ((message, frames), _) =>
      (Record.required "message" message).map fun message => ⟨message, frames⟩

end ScriptFault

namespace MethodRunResult

def toJson (r : MethodRunResult) : Json :=
  .object [("return_value", .boolean r.returnValue), ("state", r.state)]

def record : Record (Option Bool × Json) where
  title := "struct MethodRunResult"
  fields :=
    [ ("return_value", setField asBoolean fun b (_, state) => (some b, state))
    , ("state", setField (asJson 1) fun state (b, _) => (b, state)) ]

def ofDocument (document : Document) : Decoded MethodRunResult :=
  match record.read (none, .null) document with
  | .error e => .error e
  | .ok ((value, state), _) =>
      (Record.required "return_value" value).map fun value => ⟨value, state⟩

end MethodRunResult

namespace Instant

def toJson? : Option Instant → Json
  | some t => .text t.text
  | none => .null

def ofDocument (document : Document) : Decoded Instant := do
  let source ← asText document
  match ofText? source with
  | some t => .ok t
  | none => .error .malformed

end Instant

namespace ProgramBlock

def toJson (p : ProgramBlock) : Json :=
  .object
    [ ("address", .text p.address)
    , ("name", .text p.name)
    , ("script_source", .text p.scriptSource)
    , ("script_setup", .ofText? p.scriptSetup)
    , ("is_enabled", .boolean p.isEnabled)
    , ("will_run", .boolean p.willRun)
    , ("script_errors", .text p.scriptErrors)
    , ("last_compile_errors", .array (p.lastCompileErrors.map ProgramError.toJson))
    , ("activation_time", Instant.toJson? p.activationTime)
    , ("trigger_time", Instant.toJson? p.triggerTime) ]

/-- The fields of a program that have been read. -/
structure Draft where
  address : Option String
  name : Option String
  scriptSource : Option String
  scriptSetup : Option (Option String)
  isEnabled : Option Bool
  willRun : Option Bool
  scriptErrors : Option String
  lastCompileErrors : Option (List ProgramError)
  activationTime : Option (Option Instant)
  triggerTime : Option (Option Instant)

def record : Record Draft where
  title := "struct ProgramBlock"
  fields :=
    [ ("address", setField asText fun s d => { d with address := some s })
    , ("name", setField asText fun s d => { d with name := some s })
    , ("script_source", setField asText fun s d => { d with scriptSource := some s })
    , ("script_setup", setField (asOptional asText) fun s d => { d with scriptSetup := some s })
    , ("is_enabled", setField asBoolean fun b d => { d with isEnabled := some b })
    , ("will_run", setField asBoolean fun b d => { d with willRun := some b })
    , ("script_errors", setField asText fun s d => { d with scriptErrors := some s })
    , ("last_compile_errors",
        setField (asList ProgramError.ofDocument) fun es d =>
          { d with lastCompileErrors := some es })
    , ("activation_time",
        setField (asOptional Instant.ofDocument) fun t d => { d with activationTime := some t })
    , ("trigger_time",
        setField (asOptional Instant.ofDocument) fun t d => { d with triggerTime := some t }) ]

def ofDocument (document : Document) : Decoded ProgramBlock := do
  let (d, inArray) ←
    record.read ⟨none, none, none, none, none, none, none, none, none, none⟩ document
  let address ← Record.required "address" d.address
  let name ← Record.required "name" d.name
  let scriptSource ← Record.required "script_source" d.scriptSource
  let scriptSetup ← Record.requiredInArray inArray "script_setup" d.scriptSetup
  let isEnabled ← Record.required "is_enabled" d.isEnabled
  let willRun ← Record.required "will_run" d.willRun
  let scriptErrors ← Record.required "script_errors" d.scriptErrors
  let lastCompileErrors ← Record.required "last_compile_errors" d.lastCompileErrors
  let activationTime ← Record.requiredInArray inArray "activation_time" d.activationTime
  let triggerTime ← Record.requiredInArray inArray "trigger_time" d.triggerTime
  pure ⟨address, name, scriptSource, scriptSetup, isEnabled, willRun, scriptErrors,
    lastCompileErrors, activationTime, triggerTime⟩

end ProgramBlock

namespace CompilerConfig

def toJson (c : CompilerConfig) : Json :=
  .object
    [ ("command", .array (c.command.map .text))
    , ("references", .array (c.references.map .text))
    , ("timeout_secs", .integer c.timeoutSecs)
    , ("output_limit_bytes", .integer c.outputLimitBytes) ]

def record : Record CompilerConfig where
  title := "struct CompilerConfig"
  fields :=
    [ ("command", setField (asList asText) fun ws c => { c with command := ws })
    , ("references", setField (asList asText) fun ws c => { c with references := ws })
    , ("timeout_secs", setField asNatural fun n c => { c with timeoutSecs := n })
    , ("output_limit_bytes", setField asNatural fun n c => { c with outputLimitBytes := n }) ]

def ofDocument (document : Document) : Decoded CompilerConfig :=
  (record.read .standard document).map Prod.fst

end CompilerConfig

namespace HostConfig

def toJson (c : HostConfig) : Json := .object [("endpoint", .text c.endpoint)]

def record : Record HostConfig where
  title := "struct HostConfig"
  fields := [("endpoint", setField asText fun s c => { c with endpoint := s })]

def ofDocument (document : Document) : Decoded HostConfig :=
  (record.read .standard document).map Prod.fst

end HostConfig

namespace EngineConfig

def toJson (c : EngineConfig) : Json :=
  .object
    [ ("programs_dir", .text c.programsDir.text)
    , ("shadow_dir", .text c.shadowDir.text)
    , ("template_path", .ofText? (c.templatePath.map Path.text))
    , ("entry_type", .text c.entryType)
    , ("artifact_extension", .text c.artifactExtension)
    , ("debug_extensions", .array (c.debugExtensions.map .text))
    , ("compiler", c.compiler.toJson)
    , ("host", c.host.toJson) ]

def record : Record EngineConfig where
  title := "struct EngineConfig"
  fields :=
    [ ("programs_dir", setField asText fun s c => { c with programsDir := ⟨s⟩ })
    , ("shadow_dir", setField asText fun s c => { c with shadowDir := ⟨s⟩ })
    , ("template_path",
        setField (asOptional asText) fun s c => { c with templatePath := s.map Path.mk })
    , ("entry_type", setField asText fun s c => { c with entryType := s })
    , ("artifact_extension", setField asText fun s c => { c with artifactExtension := s })
    , ("debug_extensions", setField (asList asText) fun ws c => { c with debugExtensions := ws })
    , ("compiler", setField CompilerConfig.ofDocument fun v c => { c with compiler := v })
    , ("host", setField HostConfig.ofDocument fun v c => { c with host := v }) ]

def ofDocument (document : Document) : Decoded EngineConfig :=
  (record.read .standard document).map Prod.fst

end EngineConfig

end Automation
