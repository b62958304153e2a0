import Automation.Config.Written
import Automation.Proofs.Boundary
import Automation.Proofs.Toml.Written

/-
The written form of a configuration is read as the configuration.

Each setting is written under its own name, so the table that is read has what was written under each of
them, and nothing of the standard configuration is left where something was said.  A template that is not
there is not written, and no template is the standard.
-/

namespace Automation

open Document (asNatural asText asList asOptional)
open Toml (Setting Settings IsBareName)

/-- A number that fits in an unsigned word. -/
def FitsUnsigned (n : Nat) : Prop := n ≤ 0xffffffffffffffff

instance (n : Nat) : Decidable (FitsUnsigned n) := inferInstanceAs (Decidable (_ ≤ _))

namespace Toml.Setting

/-- What is read of a text, of texts and of a number. -/
theorem asText_value (s : String) : (text s).value.toDocument.asText = .ok s := rfl

theorem asOptional_value (s : String) : (text s).value.toDocument.asOptional asText = .ok (some s) :=
  rfl

theorem asList_value (ss : List String) : (texts ss).value.toDocument.asList asText = .ok ss := by
  rw [value, Value.toDocument, asList]
  induction ss with
  | nil => rfl
  | cons s rest ih =>
      rw [List.map_cons, Value.documents, List.mapM_cons, ih]
      rfl

theorem asNatural_value {n : Nat} (h : FitsUnsigned n) : (number n).value.toDocument.asNatural = .ok n := by
  have hrange : (0 : Int) ≤ n ∧ (n : Int) ≤ 0xffffffffffffffff := by
    rw [FitsUnsigned] at h
    omega
  rw [value, Value.toDocument, asNatural, Document.asIntegerIn, if_pos hrange]
  rfl

theorem fits_number {n : Nat} (h : FitsUnsigned n) : (number n).Fits := by
  rw [FitsUnsigned] at h
  rw [Fits, integerLimit]
  omega

end Toml.Setting

namespace Toml

/-- A setting that is read for the first time is put into the record. -/
theorem readMembers_documentMembers {ρ α : Type} {record : Record ρ} {known : ρ} {name : String}
    {read : Document → Decoded α} {put : α → ρ → ρ} {found : Value} {value : α}
    {members : List (String × Value)} {seen : List String}
    (hfield : record.fields.lookup name = some (setField read put)) (hunseen : name ∉ seen)
    (hvalue : read found.toDocument = .ok value) :
    record.readMembers (Value.documentMembers ((name, found) :: members)) seen known =
      record.readMembers (Value.documentMembers members) (name :: seen) (put value known) :=
  Record.readMembers_cons_setField hfield hunseen hvalue

end Toml

/-- The settings of a compiler. -/
def CompilerConfig.settings (c : CompilerConfig) : Settings :=
  [ ("command", .texts c.command)
  , ("references", .texts c.references)
  , ("timeout_secs", .number c.timeoutSecs)
  , ("output_limit_bytes", .number c.outputLimitBytes) ]

/-- The numbers of a compiler fit in unsigned words. -/
def CompilerConfig.Fits (c : CompilerConfig) : Prop :=
  FitsUnsigned c.timeoutSecs ∧ FitsUnsigned c.outputLimitBytes

/-- The settings of a host. -/
def HostConfig.settings (c : HostConfig) : Settings := [("endpoint", .text c.endpoint)]

/-- The table of some settings, as it is read. -/
def Toml.Settings.document (settings : Settings) : Document :=
  (Toml.Value.table .headed settings.members).toDocument

theorem CompilerConfig.ofDocument_settings {c : CompilerConfig} (h : c.Fits) :
    ofDocument c.settings.document = .ok c := by
  rw [ofDocument, Settings.document, Toml.Value.toDocument, Record.read]
  change ((record.readMembers (Toml.Value.documentMembers [_, _, _, _]) _ _).map _).map _ = _
  rw [Toml.readMembers_documentMembers rfl (by decide) (Setting.asList_value c.command),
    Toml.readMembers_documentMembers rfl (by decide) (Setting.asList_value c.references),
    Toml.readMembers_documentMembers rfl (by decide) (Setting.asNatural_value h.1),
    Toml.readMembers_documentMembers rfl (by decide) (Setting.asNatural_value h.2)]
  rfl

theorem HostConfig.ofDocument_settings (c : HostConfig) : ofDocument c.settings.document = .ok c :=
  rfl

theorem CompilerConfig.settings_fits {c : CompilerConfig} (h : c.Fits) : c.settings.Fits := by
  intro item hitem
  simp only [CompilerConfig.settings, List.mem_cons, List.not_mem_nil, or_false] at hitem
  rcases hitem with rfl | rfl | rfl | rfl
  · exact ⟨by dsimp only; decide, trivial⟩
  · exact ⟨by dsimp only; decide, trivial⟩
  · exact ⟨by dsimp only; decide, Setting.fits_number h.1⟩
  · exact ⟨by dsimp only; decide, Setting.fits_number h.2⟩

theorem HostConfig.settings_fits (c : HostConfig) : c.settings.Fits := by
  intro item hitem
  obtain rfl := List.mem_singleton.mp hitem
  exact ⟨by dsimp only; decide, trivial⟩

namespace EngineConfig

variable {c : EngineConfig}

/-- The sections of a configuration. -/
def sections (c : EngineConfig) : List (String × Settings) :=
  [("compiler", c.compiler.settings), ("host", c.host.settings)]

theorem written_eq_write (c : EngineConfig) : c.written = Toml.write c.settings c.sections := rfl

/-- What is said of a configuration in its written form. -/
def said (c : EngineConfig) : List (String × Toml.Value) :=
  c.settings.members ++ c.sections.map Toml.sectionMember

theorem settings_fits (c : EngineConfig) : c.settings.Fits := by
  intro item hitem
  simp only [settings, List.mem_append, List.mem_cons, List.not_mem_nil, or_false] at hitem
  rcases hitem with ((rfl | rfl) | htemplate) | rfl | rfl | rfl
  case inl.inr =>
    split at htemplate
    · obtain rfl := List.mem_singleton.mp htemplate
      exact ⟨by dsimp only; decide, trivial⟩
    · cases htemplate
  all_goals exact ⟨by dsimp only; decide, trivial⟩

theorem sections_fit (h : c.compiler.Fits) :
    ∀ part ∈ c.sections, IsBareName part.1 ∧ part.2.Fits := by
  intro part hpart
  simp only [sections, List.mem_cons, List.not_mem_nil, or_false] at hpart
  rcases hpart with rfl | rfl
  · exact ⟨by dsimp only; decide, CompilerConfig.settings_fits h⟩
  · exact ⟨by dsimp only; decide, HostConfig.settings_fits c.host⟩

/-- The written form is read as what it says. -/
theorem parse?_written (h : c.compiler.Fits) :
    Toml.parse? (c.written ++ "\n") = some (.table .headed c.said) := by
  rw [written_eq_write]
  refine Toml.parse?_write (settings_fits c) (by simp [settings]) (sections_fit h) ?_ ?_
  · cases htemplate : c.templatePath with
    | none =>
        simp only [settings, htemplate]
        exact (by decide :
          ["programs_dir", "shadow_dir", "entry_type", "artifact_extension", "debug_extensions",
            "compiler", "host"].Nodup)
    | some path =>
        simp only [settings, htemplate]
        exact (by decide :
          ["programs_dir", "shadow_dir", "template_path", "entry_type", "artifact_extension",
            "debug_extensions", "compiler", "host"].Nodup)
  · intro part hpart
    simp only [sections, List.mem_cons, List.not_mem_nil, or_false] at hpart
    rcases hpart with rfl | rfl
    · exact (by decide : ["command", "references", "timeout_secs", "output_limit_bytes"].Nodup)
    · exact (by decide : ["endpoint"].Nodup)

/-- Sections are given by names, and nothing is clipped. -/
theorem map_clipSection_said (c : EngineConfig) :
    (Toml.Value.documentMembers c.said).map clipSection = Toml.Value.documentMembers c.said := by
  rw [said, settings]
  cases c.templatePath <;> rfl

/-- When the directories and the template are known, the settings behind them make the configuration. -/
theorem readMembers_behind (h : c.compiler.Fits) {known : EngineConfig} {seen : List String}
    (hseen : ∀ name ∈ ["entry_type", "artifact_extension", "debug_extensions", "compiler", "host"],
      name ∉ seen)
    (hprograms : known.programsDir = c.programsDir) (hshadow : known.shadowDir = c.shadowDir)
    (htemplate : known.templatePath = c.templatePath) :
    record.readMembers (Toml.Value.documentMembers
        [ ("entry_type", (Setting.text c.entryType).value)
        , ("artifact_extension", (Setting.text c.artifactExtension).value)
        , ("debug_extensions", (Setting.texts c.debugExtensions).value)
        , ("compiler", .table .headed c.compiler.settings.members)
        , ("host", .table .headed c.host.settings.members) ]) seen known =
      .ok c := by
  simp only [List.forall_mem_cons, List.not_mem_nil, false_implies, implies_true, and_true] at hseen
  obtain ⟨hentry, hextension, hdebug, hcompiler, hhost⟩ := hseen
  rw [Toml.readMembers_documentMembers rfl hentry (Setting.asText_value c.entryType),
    Toml.readMembers_documentMembers rfl (by simp [hextension])
      (Setting.asText_value c.artifactExtension),
    Toml.readMembers_documentMembers rfl (by simp [hdebug]) (Setting.asList_value c.debugExtensions),
    Toml.readMembers_documentMembers rfl (by simp [hcompiler]) (CompilerConfig.ofDocument_settings h),
    Toml.readMembers_documentMembers rfl (by simp [hhost]) (HostConfig.ofDocument_settings c.host)]
  change Except.ok (EngineConfig.mk known.programsDir known.shadowDir known.templatePath c.entryType
    c.artifactExtension c.debugExtensions c.compiler c.host) = _
  rw [hprograms, hshadow, htemplate]

/-- What is said of a configuration makes the configuration out of the standard one. -/
theorem readMembers_said (h : c.compiler.Fits) :
    record.readMembers (Toml.Value.documentMembers c.said) [] .standard = .ok c := by
  have hdirectories : c.said = ("programs_dir", (Setting.text c.programsDir.text).value) ::
      ("shadow_dir", (Setting.text c.shadowDir.text).value) :: c.said.drop 2 := rfl
  rw [hdirectories, Toml.readMembers_documentMembers rfl (by decide) (Setting.asText_value _),
    Toml.readMembers_documentMembers rfl (by decide) (Setting.asText_value _), said, settings]
  cases htemplate : c.templatePath with
  | none => exact readMembers_behind h (by decide) rfl rfl htemplate.symm
  | some path =>
      refine (Toml.readMembers_documentMembers rfl (by decide)
        (Setting.asOptional_value path.text)).trans ?_
      exact readMembers_behind h (by decide) rfl rfl htemplate.symm

/-- A configuration is read from its written form, whatever its texts are and however many there are. -/
theorem ofWritten?_written (h : c.compiler.Fits) : ofWritten? (c.written ++ "\n") = some c := by
  have hread : ofDocument (.object (Toml.Value.documentMembers c.said)) = .ok c := by
    rw [ofDocument, Record.read, readMembers_said h]
    rfl
  rw [ofWritten?, parse?_written h, Option.map_some, Toml.Value.toDocument]
  dsimp only
  rw [map_clipSection_said, hread]
  rfl

end EngineConfig

end Automation
