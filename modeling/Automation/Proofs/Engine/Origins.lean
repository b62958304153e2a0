import Automation.Proofs.Composition
import Automation.Proofs.Engine.Loading

/-
From faults back to the sources.

A fault names lines of the unit that was running, and that unit was composed when it was compiled.
When the fault is told to the author, the sources may be others.  The lines of the main body come
right all the same; those of the trigger condition are off by as many lines as the main body has
lost since then.
-/

namespace Automation

/-- The first frame of the entry type is at a line of the composed unit. -/
def ScriptFault.StopsAt (fault : ScriptFault) (entryType : String) (line : Nat) : Prop :=
  ∃ frame, fault.frames.find? (StackFrame.isDeclaredBy entryType) = some frame ∧ frame.line = line

theorem ScriptFault.StopsAt.line_eq {fault : ScriptFault} {entryType : String} {line : Nat}
    (h : fault.StopsAt entryType line) : fault.line entryType = line := by
  obtain ⟨frame, hframe, hline⟩ := h
  rw [ScriptFault.line, hframe]
  exact hline

namespace Engine

variable {τ ε : Type} {e : Engine τ ε} {s : EngineState τ ε} {events : List (EngineEvent τ)}

/-- How the unit in the slot came about.  In the course of events the program was compiled without
errors, and the image that was to be read right after that is the one in the slot. -/
structure Origin (e : Engine τ ε) (s : EngineState τ ε) (events : List (EngineEvent τ)) where
  before : List (EngineEvent τ)
  since : List (EngineEvent τ)
  course : events = before ++ .order .compile :: since
  compiled : (e.compile.run (e.after s before)).1 = []
  image : ArtifactImage
  published : e.stored (e.after s (before ++ [.order .compile])) = .ok image
  loaded : (e.after s events).slot.image? = some image

namespace Origin

/-- The main body that was compiled. -/
def main (origin : e.Origin s events) : String := (e.after s origin.before).program.scriptSource

/-- The trigger condition that was compiled. -/
def trigger (origin : e.Origin s events) : Option String :=
  (e.after s origin.before).program.scriptSetup

/-- The unit that was compiled. -/
def unit (origin : e.Origin s events) : Composition :=
  e.environment.template.compose origin.main origin.trigger

/-- As long as the unit is not replaced its origin is the same, whatever becomes of the sources. -/
def goOn (origin : e.Origin s events) {event : EngineEvent τ} (h : ¬event.Replaces) :
    e.Origin s (events ++ [event]) where
  before := origin.before
  since := origin.since ++ [event]
  course := by simp [origin.course]
  compiled := origin.compiled
  image := origin.image
  published := origin.published
  loaded := by
    rw [after_append, after_cons, after_nil, EngineEvent.image?_next h]
    exact origin.loaded

end Origin

/-- An event that edits no program leaves the main body as it was. -/
theorem scriptSource_next (e : Engine τ ε) {event : EngineEvent τ} (h : ∀ f, event ≠ .edit f)
    (s : EngineState τ ε) : (event.next e s).program.scriptSource = s.program.scriptSource := by
  have hsource := congrArg ProgramBlock.scriptSource (EngineEvent.writing_next e h s)
  exact hsource

/-- Where the author edits the main body in a course of events, its number of lines stays. -/
def KeepsLines (e : Engine τ ε) (s : EngineState τ ε) (events : List (EngineEvent τ)) : Prop :=
  ∀ before f rest, events = before ++ .edit f :: rest →
    lineCount (f (e.after s before).program).scriptSource =
      lineCount (e.after s before).program.scriptSource

theorem keepsLines_nil : e.KeepsLines s [] := by
  intro before f rest hevents
  simp at hevents

theorem keepsLines_cons {event : EngineEvent τ} : e.KeepsLines s (event :: events) ↔
    (∀ f, event = .edit f →
      lineCount (f s.program).scriptSource = lineCount s.program.scriptSource) ∧
    e.KeepsLines (event.next e s) events := by
  refine ⟨fun h => ⟨fun f hf => h [] f events (by rw [hf, List.nil_append]),
    fun before f rest hevents => h (event :: before) f rest (by rw [hevents, List.cons_append])⟩,
    fun ⟨hfirst, hrest⟩ before f rest hevents => ?_⟩
  cases before with
  | nil => exact hfirst f (List.cons.inj hevents).1
  | cons first others =>
      obtain ⟨rfl, rfl⟩ := List.cons.inj hevents
      exact hrest others f rest rfl

/-- Nothing but such edits can change the number of lines of the main body. -/
theorem KeepsLines.lineCount_after (h : e.KeepsLines s events) :
    lineCount (e.after s events).program.scriptSource = lineCount s.program.scriptSource := by
  induction events generalizing s with
  | nil => rfl
  | cons event rest ih =>
      obtain ⟨hfirst, hrest⟩ := keepsLines_cons.mp h
      rw [after_cons, ih hrest]
      by_cases hedit : ∃ f, event = .edit f
      · obtain ⟨f, rfl⟩ := hedit
        exact hfirst f rfl
      · rw [scriptSource_next e fun f hf => hedit ⟨f, hf⟩]

/-- A fault of the main body is told by its distance from the start of the main body. -/
theorem formattedError_main (e : Engine τ ε) (s : EngineState τ ε) {fault : ScriptFault} {k : Nat}
    (h : fault.StopsAt e.environment.config.entryType (e.environment.template.mainOffset + k)) :
    (e.formattedError fault false).run s = (⟨k, 0, fault.message, "-1", .mainBody⟩, s) := by
  have hrow : fault.line e.environment.config.entryType - e.environment.template.mainOffset =
      (k : Int) := by
    rw [h.line_eq]
    omega
  exact congrArg (fun row => ((⟨row, 0, fault.message, "-1", .mainBody⟩ : ProgramError), s)) hrow

/-- A fault of the trigger condition is told by its distance from where the trigger condition would
start if the unit had been composed of what the main body is now. -/
theorem formattedError_trigger (e : Engine τ ε) (s : EngineState τ ε) {fault : ScriptFault}
    {main : String} {trigger : Option String} {k : Nat}
    (h : fault.StopsAt e.environment.config.entryType
      ((e.environment.template.compose main trigger).triggerLine + k)) :
    (e.formattedError fault true).run s =
      (⟨k + (lineCount main - lineCount s.program.scriptSource), 0, fault.message, "-1",
        .triggerCondition⟩, s) := by
  have hrow : fault.line e.environment.config.entryType -
      (e.environment.template.triggerOffset + e.environment.template.mainOffset +
        lineCount s.program.scriptSource) =
      (k : Int) + (lineCount main - lineCount s.program.scriptSource) := by
    rw [h.line_eq, Template.triggerLine_compose]
    omega
  exact congrArg
    (fun row => ((⟨row, 0, fault.message, "-1", .triggerCondition⟩ : ProgramError), s)) hrow

/-- Whatever happens to the sources after the loaded unit was compiled: a fault of `run` at a line of
its main body is told to the author with that line, and a fault of `setup` at a line of its trigger
condition with that line and as many more as the main body has lost since then.  So the latter comes
right exactly when the main body has as many lines as it had, and it does as long as all edits have
kept their number. -/
theorem faults_map_to_compiled_lines {text : String} (e : Engine τ ε)
    (htemplate : Template.parse text = .ok e.environment.template) (s : EngineState τ ε)
    (events : List (EngineEvent τ)) (origin : e.Origin s events) :
    (∀ k < lineCount origin.main,
      (Text.lines origin.unit.text)[origin.unit.mainOffset + k]? = (Text.lines origin.main)[k]? ∧
      ∀ fault : ScriptFault,
        fault.StopsAt e.environment.config.entryType (origin.unit.mainOffset + k) →
          (e.formattedError fault false).run (e.after s events) =
            (⟨k, 0, fault.message, "-1", .mainBody⟩, e.after s events)) ∧
    (∀ k < Template.triggerLineCount origin.trigger,
      (Text.lines origin.unit.text)[origin.unit.triggerLine + k]? =
        (Text.lines (origin.trigger.getD ""))[k]? ∧
      ∀ fault : ScriptFault,
        fault.StopsAt e.environment.config.entryType (origin.unit.triggerLine + k) →
          (e.formattedError fault true).run (e.after s events) =
            (⟨k + (lineCount origin.main - lineCount (e.after s events).program.scriptSource), 0,
              fault.message, "-1", .triggerCondition⟩, e.after s events)) ∧
    (e.KeepsLines (e.after s (origin.before ++ [.order .compile])) origin.since →
      lineCount (e.after s events).program.scriptSource = lineCount origin.main) := by
  have hcut := Template.cutFrom_of_parse htemplate
  refine ⟨fun k hk => ⟨Template.getElem?_lines_main hcut _ _ hk, fun fault hfault => ?_⟩,
    fun k hk => ⟨Template.getElem?_lines_trigger hcut _ _ hk, fun fault hfault => ?_⟩,
    fun hedits => ?_⟩
  · exact formattedError_main e _ hfault
  · exact formattedError_trigger e _ hfault
  · have hcompile : (e.after s (origin.before ++ [.order .compile])).program.scriptSource =
        origin.main := by
      rw [after_append]
      exact scriptSource_next e (fun f hf => by cases hf) _
    have hcount := hedits.lineCount_after
    rw [← after_append, List.append_assoc, List.singleton_append, ← origin.course] at hcount
    rw [hcount, hcompile]

end Engine

section Lamp

/-- An engine whose units are the main body and the trigger condition, one after the other, and
whose artifacts are the units themselves. -/
def bareEngine : Engine Unit Unit where
  environment := ⟨.standard, .ofConfig .standard, ⟨[], [], []⟩, ⟨"programs/.shadow/1-000000"⟩⟩
  compiler request := do
    let _ ← Act.files (FileAction.perform (.write request.outputPath request.source.toUTF8))
    pure (.ok [])
  loader := .obliging

/-- A lamp with a main body of one line. -/
def lampOfOneLine : EngineState Unit Unit where
  world :=
    { host :=
        { files := ⟨[], [(["programs"], .directory)]⟩
          processes := ⟨1, []⟩
          now := ⟨0, 0⟩
          fresh := 0 }
      outside := () }
  registry := .unshared
  program := { ProgramBlock.ofSource "lamp" "on" with scriptSetup := some "dark" }
  slot := .unloaded
  notices := []

/-- The lamp is compiled and loaded. -/
def lampOrigin : bareEngine.Origin lampOfOneLine [.order .compile, .order .load] where
  before := []
  since := [.order .load]
  course := rfl
  compiled := by decide +kernel
  image := ⟨"on\ndark".toUTF8, none⟩
  published := by decide +kernel
  loaded := by decide +kernel

/-- The author writes another main body. -/
def editMain (main : String) : EngineEvent Unit := .edit fun p => { p with scriptSource := main }

/-- The unit stays loaded while another main body is written. -/
def lampOriginAfter (main : String) :
    bareEngine.Origin lampOfOneLine ([.order .compile, .order .load] ++ [editMain main]) :=
  lampOrigin.goOn (show ¬(editMain main).Replaces from id)

/-- A fault at the second line of the unit of the lamp, which is the line of its trigger condition. -/
def lampFault : ScriptFault := ⟨"m", [⟨some EngineConfig.standard.entryType, 1⟩]⟩

theorem triggerLine_lampOrigin (main : String) : (lampOriginAfter main).unit.triggerLine = 1 := by
  have hunit : (Template.compose ⟨[], [], []⟩ "on" (some "dark")).triggerLine = 1 := by cbv
  exact hunit

theorem triggerLineCount_lampOrigin (main : String) :
    Template.triggerLineCount (lampOriginAfter main).trigger = 1 := by
  have hcount : Template.triggerLineCount (some "dark") = 1 := by cbv
  exact hcount

theorem lampFault_stopsAt (main : String) :
    lampFault.StopsAt bareEngine.environment.config.entryType
      ((lampOriginAfter main).unit.triggerLine + 0) := by
  rw [triggerLine_lampOrigin]
  exact ⟨⟨some EngineConfig.standard.entryType, 1⟩, by cbv, rfl⟩

/-- Until then the main body is the one of one line. -/
theorem scriptSource_lamp :
    (bareEngine.after (bareEngine.after lampOfOneLine [.order .compile])
      [.order .load]).program.scriptSource = "on" :=
  (Engine.scriptSource_next bareEngine (fun f hf => by cases hf) _).trans
    (Engine.scriptSource_next bareEngine (fun f hf => by cases hf) lampOfOneLine)

theorem lamp_fault_is_in_its_line :
    Template.parse "\x7b\x7bprogram\x7d\x7d\n\x7b\x7bcondition\x7d\x7d" =
        .ok bareEngine.environment.template ∧
      lampFault.StopsAt bareEngine.environment.config.entryType
        ((lampOriginAfter "off").unit.triggerLine + 0) ∧
      bareEngine.KeepsLines (bareEngine.after lampOfOneLine [.order .compile])
        (lampOriginAfter "off").since ∧
      ((bareEngine.formattedError lampFault true).run (bareEngine.after lampOfOneLine
        ([.order .compile, .order .load] ++ [editMain "off"]))).1 =
          ⟨0, 0, "m", "-1", .triggerCondition⟩ := by
  have hparse : Template.parse "\x7b\x7bprogram\x7d\x7d\n\x7b\x7bcondition\x7d\x7d" =
      .ok bareEngine.environment.template := by cbv
  obtain ⟨-, htrigger, hlines⟩ := Engine.faults_map_to_compiled_lines bareEngine hparse
    lampOfOneLine _ (lampOriginAfter "off")
  have hcount : lineCount "off" = lineCount "on" := by cbv
  have hkept : bareEngine.KeepsLines (bareEngine.after lampOfOneLine [.order .compile])
      (lampOriginAfter "off").since := by
    refine Engine.keepsLines_cons.mpr ⟨fun f hf => ?_,
      Engine.keepsLines_cons.mpr ⟨fun f hf => ?_, Engine.keepsLines_nil⟩⟩
    · cases hf
    · cases hf
      exact hcount.trans (congrArg lineCount scriptSource_lamp.symm)
  have hline : 0 < Template.triggerLineCount (lampOriginAfter "off").trigger := by
    rw [triggerLineCount_lampOrigin]
    decide
  have htold := (htrigger 0 hline).2 lampFault (lampFault_stopsAt "off")
  rw [hlines hkept, Int.sub_self] at htold
  exact ⟨hparse, lampFault_stopsAt "off", hkept, congrArg Prod.fst htold⟩

/-- Once the main body has a second line, the fault in the only line of the trigger condition is told
as one in the line before it. -/
theorem lamp_fault_moves :
    0 < Template.triggerLineCount (lampOriginAfter "on\non").trigger ∧
      lampFault.StopsAt bareEngine.environment.config.entryType
        ((lampOriginAfter "on\non").unit.triggerLine + 0) ∧
      ((bareEngine.formattedError lampFault true).run (bareEngine.after lampOfOneLine
        ([.order .compile, .order .load] ++ [editMain "on\non"]))).1 =
          ⟨-1, 0, "m", "-1", .triggerCondition⟩ := by
  have htold := Engine.formattedError_trigger bareEngine (bareEngine.after lampOfOneLine
    ([.order .compile, .order .load] ++ [editMain "on\non"])) (lampFault_stopsAt "on\non")
  have hmain : (bareEngine.after lampOfOneLine
      ([.order .compile, .order .load] ++ [editMain "on\non"])).program.scriptSource = "on\non" := by
    rw [Engine.after_append]
    rfl
  have hlost : ((0 : Nat) : Int) + (lineCount "on" - lineCount "on\non") = -1 := by cbv
  rw [hmain, show (lampOriginAfter "on\non").main = "on" from rfl, hlost] at htold
  rw [triggerLineCount_lampOrigin]
  exact ⟨by decide, lampFault_stopsAt "on\non", congrArg Prod.fst htold⟩

end Lamp

end Automation
