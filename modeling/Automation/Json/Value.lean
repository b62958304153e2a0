import Automation.Json.Document
import Automation.Json.Double

/-
JSON values and their compact text.

A value is what a document means to a reader that knows nothing about it: every leaf has a value,
the names of an object are in order and stand once, and the last of two members with one name
counts.  Containers are nested at most 127 deep.
-/

namespace Automation

/-- A JSON value. -/
inductive Json where
  | null
  | boolean (value : Bool)
  | number (value : Number)
  | text (value : String)
  | array (items : List Json)
  | object (members : List (String × Json))
deriving Repr, Inhabited, BEq

namespace Json

/-- The greatest number of containers around a leaf. -/
def maxDepth : Nat := 127

def integer (n : Int) : Json := .number (.integer n)

/-- A text, or nothing. -/
def ofText? : Option String → Json
  | some s => .text s
  | none => .null

/-- Put a member into an object whose names are in order; an earlier one of that name goes. -/
def insert (name : String) (value : Json) : List (String × Json) → List (String × Json)
  | [] => [(name, value)]
  | (other, old) :: rest =>
      if name < other then (name, value) :: (other, old) :: rest
      else if name = other then (name, value) :: rest
      else (other, old) :: insert name value rest

/-- The member of that name. -/
def get? (name : String) : Json → Option Json
  | .object members => members.lookup name
  | _ => none

/-- The escape of a character that cannot stand in a text, and the character itself otherwise. -/
def escape (c : Char) : List Char :=
  if c = '\"' then ['\\', '\"']
  else if c = '\\' then ['\\', '\\']
  else if c = '\n' then ['\\', 'n']
  else if c = '\r' then ['\\', 'r']
  else if c = '\t' then ['\\', 't']
  else if c = '\x08' then ['\\', 'b']
  else if c = '\x0c' then ['\\', 'f']
  else if c.toNat < 0x20 then
    ['\\', 'u', '0', '0', Nat.digitChar (c.toNat / 16), Nat.digitChar (c.toNat % 16)]
  else [c]

/-- A text with its quotes. -/
def renderText (s : String) : List Char :=
  '\"' :: (s.toList.flatMap escape ++ ['\"'])

def renderNumber : Number → List Char
  | .integer n => (toString n).toList
  | .double bits => (Double.text bits).toList

mutual

/-- The compact text of a value: no space anywhere. -/
def render : Json → List Char
  | .null => "null".toList
  | .boolean true => "true".toList
  | .boolean false => "false".toList
  | .number n => renderNumber n
  | .text s => renderText s
  | .array [] => "[]".toList
  | .array (first :: more) => '[' :: (render first ++ renderItems more ++ [']'])
  | .object [] => ['\x7b', '\x7d']
  | .object ((name, first) :: more) =>
      '\x7b' :: (renderText name ++ ':' :: (render first ++ renderMembers more ++ ['\x7d']))

/-- The items of an array after its first one. -/
def renderItems : List Json → List Char
  | [] => []
  | first :: more => ',' :: (render first ++ renderItems more)

/-- The members of an object after its first one. -/
def renderMembers : List (String × Json) → List Char
  | [] => []
  | (name, first) :: more =>
      ',' :: (renderText name ++ ':' :: (render first ++ renderMembers more))

end

/-- The compact text of a value. -/
def compact (value : Json) : String := String.ofList value.render

mutual

/-- A value seen as a document. -/
def toDocument : Json → Document
  | .null => .null
  | .boolean b => .boolean b
  | .number n => .number (some n)
  | .text s => .text (some s)
  | .array items => .array (toDocuments items)
  | .object members => .object (toMembers members)

def toDocuments : List Json → List Document
  | [] => []
  | first :: more => first.toDocument :: toDocuments more

def toMembers : List (String × Json) → List (Option String × Document)
  | [] => []
  | (name, first) :: more => (some name, first.toDocument) :: toMembers more

end

end Json

namespace Document

/-- The value of a document, unless a leaf has none or the containers are nested too deep. -/
def toJson? : Nat → Document → Option Json
  | _, .null => some .null
  | _, .boolean b => some (.boolean b)
  | _, .number n => n.map .number
  | _, .text t => t.map .text
  | 0, .array _ => none
  | 0, .object _ => none
  | depth + 1, .array items => (items.mapM (toJson? depth)).map .array
  | depth + 1, .object members => do
      let values ← members.mapM fun (name, document) => do
        let name ← name
        let value ← toJson? depth document
        pure (name, value)
      pure (.object (values.foldl (fun sorted (name, value) => Json.insert name value sorted) []))

end Document

namespace Json

/-- Read a text that is one value and nothing else. -/
def parse? (source : String) : Option Json :=
  (Document.parse? source).bind (Document.toJson? maxDepth)

end Json

end Automation
