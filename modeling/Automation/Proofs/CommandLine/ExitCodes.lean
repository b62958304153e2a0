import Automation.Proofs.CommandLine.Building
import Automation.Proofs.Loading.Conversation

/-
What the exit code of a command tells.

A command that runs a program has units that are processes of their own.  An entry of such a unit is
usable once it is bound, and still is after a `setup` that succeeded, so that the `run` behind it is
always executed.  To end a process brings no file.  That is all that is needed of a unit, whatever else
it does: the exit code tells what was executed, and nothing stays open behind the command.
-/

namespace Automation

namespace CommandLine

variable {τ ε : Type}

/-- Equipment whose units are processes of a launcher. -/
def Equipment.ofProcesses (compiler : CompilerConfig → Compiler τ) (part : Nat → Part τ LoadScript)
    (launcher : Launcher τ) : Equipment τ Entry :=
  ⟨compiler, fun directory extension =>
    .second (ScriptedEntry.capabilities part) (.isolated launcher directory extension)⟩

/-- The equipment of the commands is of this kind, and its processes are ended quietly. -/
theorem standardEquipment_ofProcesses : standardEquipment =
      .ofProcesses (fun config => Compiler.command runTool (.ofConfig config))
        Surroundings.loadScript UnitProcess.launcher ∧
    UnitProcess.launcher.StopsQuietly :=
  ⟨rfl, UnitProcess.stopsQuietly_launcher⟩

section Processes

variable {compiler : CompilerConfig → Compiler τ} {part : Nat → Part τ LoadScript}
  {launcher : Launcher τ} {address : String} {record : EngineRecord τ Entry}
  {shared : SharedEnvironment} {p : ProgramBlock}

/-- An engine that is new has a loader of its equipment. -/
theorem IsNew.bindsFirm (h : IsNew (.ofProcesses compiler part launcher) address record shared p) :
    (Site.engineOf shared record).loader.BindsFirm := by
  obtain ⟨directory, extension, hloader⟩ := h.loader
  change record.loader.BindsFirm
  rw [hloader]
  exact (IsolatedEntry.bindsFirm_isolated launcher directory extension).second

theorem IsNew.releaseThins (h : IsNew (.ofProcesses compiler part launcher) address record shared p)
    (hquiet : launcher.StopsQuietly) :
    (Site.engineOf shared record).loader.capabilities.ReleaseThins := by
  obtain ⟨directory, extension, hloader⟩ := h.loader
  change record.loader.capabilities.ReleaseThins
  rw [hloader]
  exact (ScriptedEntry.releaseThins part).either (IsolatedEntry.releaseThins hquiet)

end Processes

/-- A command has ended with a report and with some files, after its engine has served as it is told. -/
structure Concludes (e : Engine τ ε) (told : Watched τ ε Report) (start : EngineState τ ε)
    (claims : Claims) (options : String) (withSetup : Bool) (report : Report) (files : FileTree) :
    Prop where
  /-- The engine runs its program and is given up. -/
  acts : told.act = do
    let report ← runProgram e options withSetup
    e.dispose
    pure report
  /-- The command reports what its engine has reported. -/
  reported : report = (told.act.run start).1
  /-- The report tells what was executed. -/
  tells : report.Tells e options withSetup start (told.executed e.loader.capabilities start)
  /-- Whatever was executed was asked of a live context with a usable entry. -/
  sound : ∀ moment ∈ told.moments start, moment.executed? e.loader.capabilities ≠ none →
    moment.IsSound e.loader.capabilities
  /-- It was executed in a context that had been opened for it. -/
  opened : told.executed e.loader.capabilities start ≠ [] → told.openings start ≠ []
  /-- The context is closed. -/
  closed : (told.act.run start).2.slot = .unloaded
  /-- No generation of any address is live. -/
  retired : ∀ address, (told.act.run start).2.registry.liveGeneration address = none
  /-- The claim is given back: one that is held was held before, and nothing was opened. -/
  released : claims.IsHeld start.program.address files →
    told.openings start = [] ∧ claims.IsHeld start.program.address start.world.host.files

section Lamp

/-- The unit of a lamp agrees to be run, and then breaks down.  This is all that it will ever write. -/
def brokenLamp : World (List Char) where
  host :=
    { files := ⟨[], [(["on"], .file "on".toUTF8 false), (["programs"], .directory),
        (["programs", "lamp.unit"], .file "unit".toUTF8 false)]⟩
      processes := ⟨1, []⟩
      now := ⟨0, 0⟩
      fresh := 0 }
  outside :=
    ["\x7b\"status\":\"bound\",\"entry\":\"automation.scripting.ScriptingInstance\",\"capabilities\":[\"set_host\",\"setup\",\"run\"]\x7d\n",
      "\x7b\"status\":\"done\"\x7d\n",
      "\x7b\"status\":\"ok\",\"return_value\":true,\"state\":null\x7d\n",
      "\x7b\"status\":\"fault\",\"message\":\"dark\",\"frames\":[]\x7d\n"].flatMap String.toList

/-- Units have written already, and nothing is compiled. -/
def tapeEquipment : Equipment (List Char) Entry :=
  .ofProcesses (fun _ _ => pure (.ok [])) (fun _ => ⟨fun _ => .standard, fun _ text => text⟩) .tape

def lampArguments : ProgramArguments := ⟨"lamp", ⟨"on"⟩, none⟩

theorem brokenLamp_is_prepared :
    ((prepare tapeEquipment ⟨"lamp.toml"⟩ lampArguments).run.run (Site.ofWorld brokenLamp)).1 =
      .ok 2 := by
  decide +kernel

theorem brokenLamp_is_reported :
    ((execute tapeEquipment ⟨⟨"lamp.toml"⟩, .run lampArguments "dim" true⟩).run brokenLamp).1 =
      ⟨.faulted, String.intercalate "\n"
        [ "\x7b\"method\":\"setup\",\"return_value\":true,\"state\":null\x7d",
          "\x7b\"line\":-10,\"column\":0,\"error_message\":\"dark\",\"error_number\":\"-1\",\"code_block\":\"CR\"\x7d",
          "" ], ""⟩ := by
  decide +kernel

end Lamp

end CommandLine

end Automation
