import Automation.Text.Blank
import Automation.Text.Lines

/-
Wrapper templates.

A template is a text with two marker lines, one for each fragment of a program.  Composing puts
the fragments in place of the markers, so the number of lines in front of a fragment depends on
the template and the main body alone.
-/

namespace Automation

/-- The marker that stands for the main body. -/
def programMarker : String := "\x7b\x7bprogram\x7d\x7d"

/-- The marker that stands for the trigger condition. -/
def conditionMarker : String := "\x7b\x7bcondition\x7d\x7d"

/-- Why a text is no template. -/
inductive TemplateError where
  | missingMarker (marker : String)
  | duplicateMarker (marker : String)
  | markersOutOfOrder
deriving Repr, DecidableEq

/-- The wording of a template error. -/
def TemplateError.message : TemplateError → String
  | .missingMarker marker => "template is missing the \x60" ++ marker ++ "\x60 marker line"
  | .duplicateMarker marker =>
      "template has more than one \x60" ++ marker ++ "\x60 marker line"
  | .markersOutOfOrder =>
      "the \x60" ++ programMarker ++ "\x60 marker must come before \x60" ++ conditionMarker ++ "\x60"

/-- A template: its lines before, between and after the two markers. -/
structure Template where
  head : List String
  middle : List String
  tail : List String
deriving Repr, DecidableEq

/-- A composed unit and where its fragments are: the lines in front of the main body, those
between the fragments, and those of the main body. -/
structure Composition where
  text : String
  mainOffset : Nat
  triggerOffset : Nat
  mainLineCount : Nat
deriving Repr, DecidableEq

/-- The number of lines a fragment takes.  An empty fragment takes one, and a final line feed
opens another. -/
def lineCount (source : String) : Nat := (Text.lines source).length

namespace Template

/-- A line that is a marker, up to white space around it. -/
def isMarker (marker line : String) : Bool := Text.trim line == marker

/-- The places of a marker among some lines. -/
def markerPlaces (marker : String) (ls : List String) : List Nat :=
  (List.range ls.length).filter fun i => (ls[i]?.map (isMarker marker)).getD false

/-- The place of the only line that is a marker. -/
def findMarker (marker : String) (ls : List String) : Except TemplateError Nat :=
  match markerPlaces marker ls with
  | [] => .error (.missingMarker marker)
  | [i] => .ok i
  | _ => .error (.duplicateMarker marker)

/-- Read a template.  Each marker is on exactly one line, the program marker on the earlier. -/
def parse (text : String) : Except TemplateError Template :=
  let ls := Text.lines text
  match findMarker programMarker ls with
  | .error e => .error e
  | .ok program =>
      match findMarker conditionMarker ls with
      | .error e => .error e
      | .ok condition =>
          if condition < program then .error .markersOutOfOrder
          else .ok ⟨ls.take program, (ls.take condition).drop (program + 1), ls.drop (condition + 1)⟩

/-- The lines in front of the main body. -/
def mainOffset (t : Template) : Nat := t.head.length

/-- The lines between the fragments. -/
def triggerOffset (t : Template) : Nat := t.middle.length

/-- Put the fragments into a template.  A missing trigger condition is one empty line. -/
def compose (t : Template) (main : String) (trigger : Option String) : Composition :=
  { text := Text.unlines (t.head ++ [main] ++ t.middle ++ [trigger.getD ""] ++ t.tail)
    mainOffset := t.mainOffset
    triggerOffset := t.triggerOffset
    mainLineCount := lineCount main }

/-- The lines of the built-in template before the main body. -/
def builtinHead : List String :=
  [ "// Generated program unit. Edits are overwritten on every compile."
  , "import host.prelude.*;"
  , "import host.net.*;"
  , "import host.data.*;"
  , ""
  , "namespace automation.scripting \x7b"
  , ""
  , "class ScriptingInstance extends ProgramBase \x7b"
  , ""
  , "    function main(options) \x7b" ]

/-- The lines of the built-in template between the fragments. -/
def builtinMiddle : List String :=
  [ "    \x7d"
  , ""
  , "    function condition() \x7b"
  , "        return (" ]

/-- The lines of the built-in template after the trigger condition. -/
def builtinTail : List String :=
  [ "        );"
  , "    \x7d"
  , ""
  , "    function setup() \x7b"
  , "        return condition();"
  , "    \x7d"
  , ""
  , "    function run(options) \x7b"
  , "        main(options);"
  , "        return true;"
  , "    \x7d"
  , "\x7d"
  , ""
  , "\x7d"
  , "" ]

/-- The template used when none is configured. -/
def builtin : Template := ⟨builtinHead, builtinMiddle, builtinTail⟩

end Template

end Automation
