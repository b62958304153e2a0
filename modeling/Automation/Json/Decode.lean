import Automation.Json.Value
import Automation.Text.Quoted

/-
Documents read as records.

A record may be written as an object or as an array of its fields in order.  Unknown members are
passed over unread.  An object that names a known field twice is refused; values never do, since
in them the last member of a name has already won.
-/

namespace Automation

/-- Why a document does not fit a type. -/
inductive DecodeError where
  | missingField (name : String)
  | duplicateField (name : String)
  | wrongType (found expected : String)
  | wrongValue (found expected : String)
  | unknownVariant (name : String) (variants : List String)
  | wrongLength (length : Nat) (expected : String)
  /-- The document is not well written, or has a leaf without a value. -/
  | malformed
deriving Repr, DecidableEq

namespace DecodeError

/-- A name as messages show it. -/
def shown (name : String) : String := "\x60" ++ name ++ "\x60"

/-- The wording of a decoding error. -/
def message : DecodeError → String
  | .missingField name => "missing field " ++ shown name
  | .duplicateField name => "duplicate field " ++ shown name
  | .wrongType found expected => "invalid type: " ++ found ++ ", expected " ++ expected
  | .wrongValue found expected => "invalid value: " ++ found ++ ", expected " ++ expected
  | .unknownVariant name variants =>
      "unknown variant " ++ shown name ++ ", expected one of " ++
        ", ".intercalate (variants.map shown)
  | .wrongLength length expected =>
      "invalid length " ++ toString length ++ ", expected " ++ expected
  | .malformed => "malformed document"

end DecodeError

/-- The outcome of reading a document as a value of a type. -/
abbrev Decoded (α : Type) := Except DecodeError α

namespace Document

/-- A document named by its kind, as messages do. -/
def kind : Document → String
  | .null => "null"
  | .boolean b => "boolean " ++ DecodeError.shown (if b then "true" else "false")
  | .number (some (.integer n)) => "integer " ++ DecodeError.shown (toString n)
  | .number (some (.double bits)) => "floating point " ++ DecodeError.shown (Double.plainText bits)
  | .number none => "number"
  | .text (some s) => "string " ++ Text.quoted s
  | .text none => "string"
  | .array _ => "sequence"
  | .object _ => "map"

/-- The refusal of a document of the wrong kind.  A leaf without a value is refused as such. -/
def refuse {α : Type} (expected : String) : Document → Decoded α
  | .number none => .error .malformed
  | .text none => .error .malformed
  | document => .error (.wrongType document.kind expected)

def asText : Document → Decoded String
  | .text (some s) => .ok s
  | document => document.refuse "a string"

def asBoolean : Document → Decoded Bool
  | .boolean b => .ok b
  | document => document.refuse "a boolean"

/-- A whole number in a range of machine words. -/
def asIntegerIn (low high : Int) (expected : String) : Document → Decoded Int
  | .number (some (.integer n)) =>
      if low ≤ n ∧ n ≤ high then .ok n
      else .error (.wrongValue (Document.number (some (.integer n))).kind expected)
  | document => document.refuse expected

/-- A signed 64-bit number. -/
def asInteger (document : Document) : Decoded Int :=
  document.asIntegerIn (-0x8000000000000000) 0x7fffffffffffffff "i64"

/-- An unsigned 64-bit number. -/
def asNatural (document : Document) : Decoded Nat :=
  (document.asIntegerIn 0 0xffffffffffffffff "u64").map Int.toNat

def asList {α : Type} (read : Document → Decoded α) : Document → Decoded (List α)
  | .array items => items.mapM read
  | document => document.refuse "a sequence"

/-- A value that may be null. -/
def asOptional {α : Type} (read : Document → Decoded α) : Document → Decoded (Option α)
  | .null => .ok none
  | document => (read document).map some

/-- Any value at all, below so many containers. -/
def asJson (around : Nat) (document : Document) : Decoded Json :=
  match document.toJson? (Json.maxDepth - around) with
  | some value => .ok value
  | none => .error .malformed

end Document

/-- How a record is read: what messages call it, and for each field its name and what reading it
does to the part of the record that is known so far. -/
structure Record (ρ : Type) where
  title : String
  fields : List (String × (Document → ρ → Decoded ρ))

namespace Record

variable {ρ : Type}

/-- Read the members of an object in the order they stand in. -/
def readMembers (record : Record ρ) :
    List (Option String × Document) → List String → ρ → Decoded ρ
  | [], _, known => .ok known
  | (none, _) :: _, _, _ => .error .malformed
  | (some name, document) :: rest, seen, known =>
      match record.fields.lookup name with
      | none => record.readMembers rest seen known
      | some read =>
          if name ∈ seen then .error (.duplicateField name)
          else
            match read document known with
            | .error e => .error e
            | .ok known => record.readMembers rest (name :: seen) known

/-- Read the items of an array as the fields in order. -/
def readItems : List (String × (Document → ρ → Decoded ρ)) → List Document → ρ → Decoded ρ
  | _, [], known => .ok known
  | [], _ :: _, known => .ok known
  | (_, read) :: fields, document :: rest, known =>
      match read document known with
      | .error e => .error e
      | .ok known => readItems fields rest known

/-- Read a record on top of what is known without it.  The answer says whether the fields stood in
an array. -/
def read (record : Record ρ) (blank : ρ) : Document → Decoded (ρ × Bool)
  | .object members => (record.readMembers members [] blank).map fun known => (known, false)
  | .array items =>
      match readItems record.fields items blank with
      | .error e => .error e
      | .ok known =>
          if record.fields.length < items.length then
            .error (.wrongLength items.length
              (toString record.fields.length ++ " elements in sequence"))
          else .ok (known, true)
  | document => document.refuse record.title

/-- A field that has to be there. -/
def required {α : Type} (name : String) : Option α → Decoded α
  | some value => .ok value
  | none => .error (.missingField name)

/-- A field that may be left out of an object but not out of an array. -/
def requiredInArray {α : Type} (inArray : Bool) (name : String) :
    Option (Option α) → Decoded (Option α)
  | some value => .ok value
  | none => if inArray then .error (.missingField name) else .ok none

end Record

/-- Read a text straight as a type. -/
def Decoded.ofText {α : Type} (read : Document → Decoded α) (source : String) : Decoded α :=
  match Document.parse? source with
  | some document => read document
  | none => .error .malformed

/-- Read a value as a type. -/
def Decoded.ofJson {α : Type} (read : Document → Decoded α) (value : Json) : Decoded α :=
  read value.toDocument

end Automation
