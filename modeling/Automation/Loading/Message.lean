import Automation.Boundary

/-
Messages between an engine and a unit.

A request is one line of JSON.  A unit answers with a line that holds an object with a member
`status`; every other line is output of the program, and is skipped.
-/

namespace Automation

/-- What is asked of a unit. -/
inductive Request where
  | bind
  | setHost (host address : String)
  | setup
  | run (options : String)
  | reset
deriving Repr, DecidableEq

namespace Request

/-- The JSON form of a request: the operation, and what it is given. -/
def toJson : Request → Json
  | .bind => .object [("op", .text "bind")]
  | .setHost host address =>
      .object [("op", .text "set_host"), ("host", .text host), ("address", .text address)]
  | .setup => .object [("op", .text "setup")]
  | .run options => .object [("op", .text "run"), ("options", .text options)]
  | .reset => .object [("op", .text "reset")]

/-- The line that a unit is sent. -/
def line (r : Request) : String := r.toJson.compact ++ "\n"

end Request

/-- What a unit answers. -/
inductive Reply where
  /-- The entry that was found, and what can be asked of it. -/
  | bound (entry : String) (capabilities : List String)
  | ok (result : MethodRunResult)
  | done
  | fault (fault : ScriptFault)
deriving Repr, Inhabited

/-- A value in the notation of messages. -/
def shownList {α : Type} (shown : α → String) (xs : List α) : String :=
  "[" ++ ", ".intercalate (xs.map shown) ++ "]"

/-- The members of a record in the notation of messages. -/
def shownRecord (name : String) (members : List (String × String)) : String :=
  name ++ " \x7b " ++ ", ".intercalate (members.map fun (field, value) => field ++ ": " ++ value)
    ++ " \x7d"

mutual

/-- A JSON value in the notation of messages. -/
def Json.shown : Json → String
  | .null => "Null"
  | .boolean b => "Bool(" ++ (if b then "true" else "false") ++ ")"
  | .number n => "Number(" ++ String.ofList (Json.renderNumber n) ++ ")"
  | .text s => "String(" ++ Text.quoted s ++ ")"
  | .array items => "Array [" ++ ", ".intercalate (Json.shownItems items) ++ "]"
  | .object members => "Object \x7b" ++ ", ".intercalate (Json.shownMembers members) ++ "\x7d"

def Json.shownItems : List Json → List String
  | [] => []
  | first :: more => first.shown :: Json.shownItems more

def Json.shownMembers : List (String × Json) → List String
  | [] => []
  | (name, first) :: more => (Text.quoted name ++ ": " ++ first.shown) :: Json.shownMembers more

end

/-- A frame in the notation of messages. -/
def StackFrame.shown (frame : StackFrame) : String :=
  let type := match frame.declaringType with
    | some name => "Some(" ++ Text.quoted name ++ ")"
    | none => "None"
  shownRecord "StackFrame" [("declaring_type", type), ("line", toString frame.line)]

namespace Reply

/-- A reply in the notation of messages. -/
def shown : Reply → String
  | .bound entry capabilities =>
      shownRecord "Bound"
        [ ("entry", Text.quoted entry)
        , ("capabilities", shownList Text.quoted capabilities) ]
  | .ok result =>
      shownRecord "Ok"
        [ ("return_value", if result.returnValue then "true" else "false")
        , ("state", result.state.shown) ]
  | .done => "Done"
  | .fault f =>
      shownRecord "Fault"
        [ ("message", Text.quoted f.message)
        , ("frames", shownList StackFrame.shown f.frames) ]

/-- The values of `status`. -/
def statuses : List String := ["bound", "ok", "done", "fault"]

/-- What is known of a reply that says a unit is bound. -/
def boundRecord : Record (Option String × List String) where
  title := "struct variant Response::Bound"
  fields :=
    [ ("entry", setField Document.asText fun s (_, caps) => (some s, caps))
    , ("capabilities", setField (Document.asList Document.asText) fun caps (s, _) => (s, caps)) ]

/-- Read a reply that says a unit is bound. -/
def boundOfDocument (document : Document) : Decoded Reply :=
  match boundRecord.read (none, []) document with
  | .error e => .error e
  | .ok ((entry, capabilities), _) =>
      (Record.required "entry" entry).map fun entry => .bound entry capabilities

/-- Read the members of a reply whose status is known. -/
def ofStatus (status : String) (document : Document) : Decoded Reply :=
  match status with
  | "bound" => boundOfDocument document
  | "ok" => (MethodRunResult.ofDocument document).map .ok
  | "done" => .ok .done
  | "fault" => (ScriptFault.ofDocument document).map .fault
  | _ => .error (.unknownVariant status statuses)

/-- Read a reply.  The status counts first. -/
def ofJson (value status : Json) : Decoded Reply :=
  match status with
  | .text name => ofStatus name value.toDocument
  | _ => status.toDocument.refuse "variant identifier"

/-- Read a line without the white space around it, if it is a reply. -/
def ofLine? (line : String) : Option (Decoded Reply) :=
  if line.toList.head? = some '\x7b' then do
    let value ← Json.parse? line
    let status ← value.get? "status"
    pure (ofJson value status)
  else none

end Reply

end Automation
