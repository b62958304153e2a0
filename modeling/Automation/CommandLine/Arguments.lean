import Automation.Path
import Automation.Table

/-
The arguments of the command line.

An option is `--name value` or `--name=value`, and a switch has no value.  No option may be given
twice.  The option for the configuration file may stand before the command or after it; the one
after it counts.
-/

namespace Automation

namespace CommandLine

/-- What an option is given. -/
inductive OptionKind where
  | switch
  | text
  /-- A text that is not empty. -/
  | path
deriving Repr, DecidableEq

/-- Why the arguments are not read to their end. -/
inductive Stop where
  | help
  | version
  | usage
deriving Repr, DecidableEq

/-- What one argument looks like. -/
inductive Argument where
  | terminator
  | long (name : String) (value : Option String)
  | short (letters : List Char)
  | word
deriving Repr, DecidableEq

def Argument.ofText (s : String) : Argument :=
  match s.toList with
  | ['-', '-'] => .terminator
  | '-' :: '-' :: cs =>
      let name := String.ofList (cs.takeWhile (· ≠ '='))
      match cs.dropWhile (· ≠ '=') with
      | _ :: value => .long name (some (String.ofList value))
      | [] => .long name none
  | '-' :: c :: cs => .short (c :: cs)
  | _ => .word

/-- The options that may be given in some place, and the others that end the reading there. -/
structure Rules where
  options : List (String × OptionKind)
  stops : List (String × Stop)
  letters : List (Char × Stop)

/-- The options that are given, with their values. -/
abbrev Given := Table String String

/-- Whether an option takes a value. -/
def OptionKind.accepts (kind : OptionKind) (value : String) : Bool :=
  match kind with
  | .switch => false
  | .text => true
  | .path => !value.isEmpty

/-- Read options up to the first word that is none. -/
def readOptions (rules : Rules) : Given → List String → Except Stop (Given × List String)
  | given, [] => .ok (given, [])
  | given, argument :: rest =>
      match Argument.ofText argument with
      | .terminator => if rest.isEmpty then .ok (given, []) else .error .usage
      | .word => .ok (given, argument :: rest)
      | .short letters => .error ((letters.head?.bind fun c => rules.letters.lookup c).getD .usage)
      | .long name value =>
          match rules.options.lookup name with
          | none =>
              .error (if value.isNone then (rules.stops.lookup name).getD .usage else .usage)
          | some kind =>
              if (Table.get? name given).isSome then .error .usage
              else
                match value with
                | some value =>
                    if kind.accepts value then readOptions rules (Table.put name value given) rest
                    else .error .usage
                | none =>
                    if kind = .switch then readOptions rules (Table.put name "" given) rest
                    else
                      match rest with
                      | value :: rest =>
                          if Argument.ofText value = .word ∧ kind.accepts value then
                            readOptions rules (Table.put name value given) rest
                          else .error .usage
                      | [] => .error .usage

/-- What is said about a program. -/
structure ProgramArguments where
  address : String
  mainBody : Path
  trigger : Option Path
deriving Repr, DecidableEq

/-- What is to be done. -/
inductive Command where
  /-- Compile a program and commit its artifact. -/
  | compile (program : ProgramArguments)
  /-- Load the committed artifact and invoke it, asking `setup` first if so told. -/
  | run (program : ProgramArguments) (options : String) (withSetup : Bool)
  /-- Print the configuration, or write it to its file. -/
  | config (write : Bool)
deriving Repr, DecidableEq

/-- A command with its configuration file. -/
structure Invocation where
  configPath : Path
  command : Command
deriving Repr, DecidableEq

/-- The configuration file that nothing is said about. -/
def defaultConfig : String := "progengine.toml"

def configOption : String × OptionKind := ("config", .path)

/-- The options in front of the command. -/
def outerRules : Rules :=
  ⟨[configOption], [("help", .help), ("version", .version)], [('h', .help), ('V', .version)]⟩

/-- The options after a command. -/
def innerRules (options : List (String × OptionKind)) : Rules :=
  ⟨configOption :: options, [("help", .help)], [('h', .help)]⟩

def programOptions : List (String × OptionKind) :=
  [("address", .text), ("main", .path), ("trigger", .path)]

/-- The options of the commands. -/
def commandOptions : List (String × List (String × OptionKind)) :=
  [ ("compile", programOptions)
  , ("run", programOptions ++ [("options", .text), ("setup", .switch)])
  , ("config", [("write", .switch)]) ]

def programArguments? (given : Given) : Option ProgramArguments := do
  let address ← Table.get? "address" given
  let mainBody ← Table.get? "main" given
  pure ⟨address, ⟨mainBody⟩, (Table.get? "trigger" given).map Path.mk⟩

/-- The command of a name with its options. -/
def command? (name : String) (given : Given) : Option Command :=
  match name with
  | "compile" => (programArguments? given).map .compile
  | "run" => (programArguments? given).map fun program =>
      .run program ((Table.get? "options" given).getD "") (Table.get? "setup" given).isSome
  | "config" => some (.config (Table.get? "write" given).isSome)
  | _ => none

/-- Whether help is asked for, on everything or on one command. -/
def isHelp (topics : List String) : Bool :=
  match topics with
  | [] => true
  | [topic] => topic == "help" || (commandOptions.lookup topic).isSome
  | _ => false

/-- Read the arguments. -/
def read (arguments : List String) : Except Stop Invocation := do
  match ← readOptions outerRules [] arguments with
  | (_, []) => .error .usage
  | (outer, name :: rest) =>
      match commandOptions.lookup name with
      | none => .error (if name = "help" ∧ isHelp rest then .help else .usage)
      | some options =>
          let (inner, rest) ← readOptions (innerRules options) [] rest
          if !rest.isEmpty then .error .usage
          else
            match command? name inner with
            | none => .error .usage
            | some command =>
                let config := (Table.get? "config" inner).orElse fun _ => Table.get? "config" outer
                .ok ⟨⟨config.getD defaultConfig⟩, command⟩

end CommandLine

end Automation
