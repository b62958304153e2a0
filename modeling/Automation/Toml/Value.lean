import Automation.Table

/-
TOML values, and how the lines of a text build them up.

A text is a table that its lines add to one after the other.  A header opens a table, and an item
gives a value to a name in the table that was opened last.  What may be added to a table depends
on how it came to be: a table is defined once, either by a header or by dotted names.
-/

namespace Automation

namespace Toml

/-- How a table came to be. -/
inductive Origin where
  /-- It is the whole text or has a header of its own. -/
  | headed
  /-- A longer header has passed through it. -/
  | passed
  /-- A dotted name has passed through it. -/
  | dotted
  /-- It stands between braces. -/
  | braced
deriving Repr, DecidableEq, Inhabited

/-- A TOML value. -/
inductive Value where
  | text (value : String)
  | integer (value : Int)
  /-- A number with a fraction or an exponent, as it is written. -/
  | float (spelling : String)
  | boolean (value : Bool)
  /-- A date, a time or both, as they are written. -/
  | moment (spelling : String)
  | list (items : List Value)
  | table (origin : Origin) (members : List (String × Value))
  /-- The tables under a repeated header.  Only the last one is open. -/
  | tables (items : List Value)
deriving Repr, Inhabited

namespace Value

/-- Add something to a table that is there already, on the way to what a name stands for. -/
def reopen (dotted : Bool) (add : Value → Option Value) : Value → Option Value
  | .table .braced _ => none
  | .table .headed members => if dotted then none else add (.table .headed members)
  | .table origin members => add (.table origin members)
  | .tables items =>
      match items.getLast? with
      | none => none
      | some last => (add last).map fun last => .tables (items.dropLast ++ [last])
  | _ => none

/-- Add something to the table at the end of a path, and make the tables on the way that are not
there. -/
def within (dotted : Bool) (add : Value → Option Value) : List String → Value → Option Value
  | [], t => add t
  | name :: path, .table origin members =>
      let inner := match Table.get? name members with
        | none => within dotted add path (.table (if dotted then .dotted else .passed) [])
        | some found => reopen dotted (within dotted add path) found
      inner.map fun value => .table origin (Table.put name value members)
  | _ :: _, _ => none

/-- Give a value to a name that has none yet.  A table made by dotted names takes items with
dotted names only, and no other table does. -/
def assign (isDotted : Bool) (name : String) (value : Value) : Value → Option Value
  | .table origin members =>
      if (origin == .dotted) != isDotted then none
      else
        match Table.get? name members with
        | none => some (.table origin (Table.put name value members))
        | some _ => none
  | _ => none

/-- Give a value to a path in a table. -/
def assignAt (above : List String) (name : String) (value t : Value) : Option Value :=
  within true (assign (!above.isEmpty) name value) above t

/-- Open the table of a header. -/
def openTable (name : String) : Value → Option Value
  | .table origin members =>
      match Table.get? name members with
      | none => some (.table origin (Table.put name (.table .headed []) members))
      | some (.table .passed inner) =>
          some (.table origin (Table.put name (.table .headed inner) members))
      | some _ => none
  | _ => none

/-- Open one more table under a repeated header. -/
def openItem (name : String) : Value → Option Value
  | .table origin members =>
      match Table.get? name members with
      | none => some (.table origin (Table.put name (.tables [.table .headed []]) members))
      | some (.tables items) =>
          some (.table origin (Table.put name (.tables (items ++ [.table .headed []])) members))
      | some _ => none
  | _ => none

end Value

/-- What a line or several of a text say. -/
inductive Statement where
  | header (above : List String) (name : String)
  | itemHeader (above : List String) (name : String)
  | item (above : List String) (name : String) (value : Value)
deriving Repr, Inhabited

/-- The table that some statements make of the one so far.  The path is that of the table that was
opened last. -/
def build : List Statement → List String → Value → Option Value
  | [], _, table => some table
  | .header above name :: rest, _, table =>
      match table.within false (Value.openTable name) above with
      | some table => build rest (above ++ [name]) table
      | none => none
  | .itemHeader above name :: rest, _, table =>
      match table.within false (Value.openItem name) above with
      | some table => build rest (above ++ [name]) table
      | none => none
  | .item above name value :: rest, opened, table =>
      match table.within false (Value.assignAt above name value) opened with
      | some table => build rest opened table
      | none => none

/-- The table of a whole text. -/
def tableOf (statements : List Statement) : Option Value :=
  build statements [] (.table .headed [])

end Toml

end Automation
