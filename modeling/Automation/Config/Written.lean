import Automation.Boundary
import Automation.Toml.Reader
import Automation.Toml.Writer

/-
The written form of a configuration.

Settings stand in the order of the configuration, the template only when there is one, and the
compiler and the host have sections of their own.  Reading takes what is said on top of the
standard configuration and passes over what it does not know.
-/

namespace Automation

namespace Toml.Value

mutual

/-- A TOML value as a document.  A moment has no members, and a float no value that a setting
could take. -/
def toDocument : Value → Document
  | .text s => .text (some s)
  | .integer n => .number (some (.integer n))
  | .float _ => .number none
  | .boolean b => .boolean b
  | .moment _ => .object []
  | .list items => .array (documents items)
  | .table _ members => .object (documentMembers members)
  | .tables items => .array (documents items)

def documents : List Value → List Document
  | [] => []
  | item :: rest => item.toDocument :: documents rest

def documentMembers : List (String × Value) → List (Option String × Document)
  | [] => []
  | (name, value) :: rest => (some name, value.toDocument) :: documentMembers rest

end

end Toml.Value

namespace EngineConfig

/-- A section given as a list of the values of its settings: values beyond them are passed over. -/
def clipList (length : Nat) : Document → Document
  | .array items => .array (items.take length)
  | document => document

/-- A member of the configuration as it is read. -/
def clipSection : Option String × Document → Option String × Document
  | (some "compiler", document) =>
      (some "compiler", clipList CompilerConfig.record.fields.length document)
  | (some "host", document) => (some "host", clipList HostConfig.record.fields.length document)
  | member => member

/-- Read a written configuration. -/
def ofWritten? (source : String) : Option EngineConfig :=
  match (Toml.parse? source).map Toml.Value.toDocument with
  | some (.object members) => (ofDocument (.object (members.map clipSection))).toOption
  | _ => none

/-- The settings outside sections. -/
def settings (c : EngineConfig) : Toml.Settings :=
  [ ("programs_dir", .text c.programsDir.text)
  , ("shadow_dir", .text c.shadowDir.text) ] ++
  (match c.templatePath with
    | some path => [("template_path", .text path.text)]
    | none => []) ++
  [ ("entry_type", .text c.entryType)
  , ("artifact_extension", .text c.artifactExtension)
  , ("debug_extensions", .texts c.debugExtensions) ]

/-- The written form of a configuration. -/
def written (c : EngineConfig) : String :=
  Toml.write c.settings
    [ ("compiler",
        [ ("command", .texts c.compiler.command)
        , ("references", .texts c.compiler.references)
        , ("timeout_secs", .number c.compiler.timeoutSecs)
        , ("output_limit_bytes", .number c.compiler.outputLimitBytes) ])
    , ("host", [("endpoint", .text c.host.endpoint)]) ]

end EngineConfig

end Automation
