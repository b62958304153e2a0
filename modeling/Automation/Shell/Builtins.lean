import Automation.Shell.Catalogue
import Automation.Shell.Fields

/-
Commands of the shell itself that only change its state.
-/

namespace Automation.Shell

namespace Builtins

open Sh

/-- The separators of fields. -/
def separators : Sh Octets := do
  pure ((← valueOf? "IFS").getD Fields.usualSeparators)

/-- A definition of a variable: its name and its value, if it has one. -/
def definition (word : Octets) : Octets × Option Octets :=
  let name := String.ofList (word.toList.takeWhile (· ≠ '='))
  if word.toList.contains '=' then
    (name, some (String.ofList (word.toList.drop (name.length + 1))))
  else (name, none)

/-- Set the variable of a definition. -/
def define (word : Octets) : Sh Octets := do
  match definition word with
  | (name, some value) => do
      setVariable name value
      pure name
  | (name, none) => pure name

/-- Read a line into variables. -/
def read (arguments : List Octets) : Sh Nat := do
  let (options, names) := Programs.splitOptions arguments
  let line ← readLine
  let closed := line.toList.getLast? == some '\n'
  let cs := if closed then line.toList.dropLast else line.toList
  let cs := if Programs.hasOption options 'r' then cs else Fields.unescape cs
  let separators ← separators
  let values := Fields.ofLine separators names.length
    (cs.dropWhile (Fields.isWhite separators))
  (names.zip values).forM fun (name, value) => setVariable name value
  pure (if closed then 0 else 1)

/-- The names from the root to a directory. -/
def walk : List Octets → List Octets → List Octets
  | here, [] => here
  | here, name :: rest =>
      if name = "" ∨ name = "." then walk here rest
      else if name = ".." then walk here.dropLast rest
      else walk (here ++ [name]) rest

/-- Go to another directory.  A hyphen stands for the directory before. -/
def cd (arguments : List Octets) : Sh Nat := do
  let home := (← valueOf? "HOME").getD ""
  let before := (← valueOf? "OLDPWD").getD ""
  let asked := arguments.headD home
  let target := if asked = "-" then before else asked
  let p ← resolve target
  if ← observe (·.isDirectory p) then
    let names := walk [] ((Text.splitAt '/' p.text.toList).map String.ofList)
    let here : Path := ⟨"/" ++ "/".intercalate names⟩
    setVariable "OLDPWD" (Octets.encode (← get).directory.text)
    setVariable "PWD" (Octets.encode here.text)
    modify fun m => { m with directory := here }
    if asked = "-" then say (Octets.encode here.text)
    pure 0
  else
    report ("cd: can't cd to " ++ target)
    pure 2

/-- Hand variables on to programs. -/
def exportAll (arguments : List Octets) : Sh Nat := do
  arguments.forM fun word => do
    let name ← define word
    modify fun m => { m with exported := name :: m.exported.filter (· ≠ name) }
  pure 0

/-- Keep variables as they are. -/
def fix (arguments : List Octets) : Sh Nat := do
  arguments.forM fun word => do
    let name ← define word
    modify fun m => { m with fixed := name :: m.fixed }
  pure 0

/-- Forget variables or functions. -/
def unset (arguments : List Octets) : Sh Nat := do
  let (options, names) := Programs.splitOptions arguments
  names.forM fun name =>
    if Programs.hasOption options 'f' then
      modify fun m => { m with functions := Table.erase name m.functions }
    else do
      if (← get).fixed.contains name then giveUp ("unset: " ++ name ++ ": is read only")
      else restore name none
  pure 0

/-- The number that the first word stands for. -/
def numberOf (command : Octets) (arguments : List Octets) (usual : Nat) : Sh Nat :=
  match arguments with
  | [] => pure usual
  | word :: _ =>
      match word.toList.all Char.isDigit, word.toNat? with
      | true, some n => pure n
      | _, _ => giveUp (command ++ ": Illegal number: " ++ word)

/-- Drop arguments from the front. -/
def shift (arguments : List Octets) : Sh Nat := do
  let count ← numberOf "shift" arguments 1
  let m ← get
  if m.arguments.length < count then giveUp "shift: can't shift that many"
  else
    set { m with arguments := m.arguments.drop count }
    pure 0

/-- The options that have names. -/
def namedOptions : List (Octets × Char) := [("errexit", 'e'), ("nounset", 'u'), ("xtrace", 'x')]

/-- Ask for the options of some letters, or no longer ask for them. -/
def setOptions (isAsked : Bool) (letters : List Char) : Sh Unit :=
  modify fun m => { m with options := letters.foldr (Options.with isAsked) m.options }

/-- Set options and the arguments. -/
def setArguments : List Octets → Sh Nat
  | [] => pure 0
  | "--" :: rest => do
      modify fun m => { m with arguments := rest }
      pure 0
  | "-o" :: name :: rest => do
      setOptions true (namedOptions.lookup name).toList
      setArguments rest
  | "+o" :: name :: rest => do
      setOptions false (namedOptions.lookup name).toList
      setArguments rest
  | word :: rest =>
      match word.toList with
      | '-' :: letters => do
          setOptions true letters
          setArguments rest
      | '+' :: letters => do
          setOptions false letters
          setArguments rest
      | _ => do
          modify fun m => { m with arguments := word :: rest }
          pure 0

/-- The signals by name and number. -/
def signals : List (Octets × Nat) :=
  [("HUP", 1), ("INT", 2), ("QUIT", 3), ("ABRT", 6), ("KILL", 9), ("USR1", 10), ("SEGV", 11),
    ("USR2", 12), ("PIPE", 13), ("ALRM", 14), ("TERM", 15), ("EXIT", 0)]

/-- The name of a signal that is given by name or by number. -/
def signalName? (s : Octets) : Option Octets :=
  let bare := if s.startsWith "SIG" then (s.drop 3).toString else s
  match signals.lookup bare with
  | some _ => some bare
  | none => s.toNat?.bind fun n => (signals.find? fun entry => entry.2 = n).map Prod.fst

/-- Say what is to be done on signals. -/
def trap (arguments : List Octets) : Sh Nat := do
  match arguments with
  | [] => pure 0
  | action :: names => do
      names.forM fun name =>
        match signalName? name with
        | some signal =>
            modify fun m =>
              { m with
                traps := if action = "-" then Table.erase signal m.traps
                  else Table.put signal action m.traps }
        | none => report ("trap: bad trap: " ++ name)
      pure 0

/-- Leave the script with a code, of which one octet counts. -/
def exit (arguments : List Octets) : Sh Nat := do
  throw (.exit ((← numberOf "exit" arguments (← get).status) % 256))

def leaveFunction (arguments : List Octets) : Sh Nat := do
  throw (.fromFunction (← numberOf "return" arguments (← get).status))

/-- Leave loops, or go on with a turn of one.  Where no loop runs there is nothing to leave. -/
def leaveLoops (command : Octets) (leave : Nat → Leave) (arguments : List Octets) : Sh Nat := do
  let count ← numberOf command arguments 1
  if count = 0 then giveUp (command ++ ": Illegal number: " ++ arguments.headD "")
  else
    match min count (← get).loops with
    | 0 => pure 0
    | n => throw (leave n)

/-- Make variables local to the function at hand; they keep their values. -/
def makeLocal (arguments : List Octets) : Sh Nat := do
  arguments.forM fun word => do
    let name := (definition word).1
    modify fun m =>
      { m with
        hidden := match Table.get? name m.hidden with
          | some _ => m.hidden
          | none => Table.put name (Table.get? name m.values) m.hidden }
    let _ ← define word
  pure 0

/-- The commands by their names.  Assignments in front of the first ones stay. -/
def special : List (Octets × Programs.Program) :=
  [ (":", fun _ => pure 0), ("exit", exit), ("return", leaveFunction)
  , ("break", leaveLoops "break" .loops), ("continue", leaveLoops "continue" .turns)
  , ("export", exportAll), ("readonly", fix), ("unset", unset), ("shift", shift)
  , ("set", setArguments), ("trap", trap) ]

def regular : List (Octets × Programs.Program) :=
  [ ("read", read), ("cd", cd), ("umask", fun _ => pure 0), ("ulimit", fun _ => pure 0)
  , ("hash", fun _ => pure 0), ("local", makeLocal) ]

end Builtins

end Automation.Shell
