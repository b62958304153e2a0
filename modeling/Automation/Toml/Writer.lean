import Automation.Toml.Quoted

/-
Writing TOML.

Settings are written one to a line under the header of their section, and sections have an empty
line before them.  Lists of two or more texts take a line for each.
-/

namespace Automation

namespace Toml

/-- The value of a setting. -/
inductive Setting where
  | text (value : String)
  | number (value : Nat)
  | texts (values : List String)
deriving Repr, DecidableEq

/-- Some settings with their names, in the order in which they are written. -/
abbrev Settings := List (String × Setting)

/-- An item of a list on a line of its own. -/
def itemLine (s : String) : List Char :=
  [' ', ' ', ' ', ' '] ++ quote s ++ [',', '\n']

/-- A list of texts. -/
def writeTexts : List String → List Char
  | [] => ['[', ']']
  | [s] => '[' :: quote s ++ [']']
  | ss => '[' :: '\n' :: ss.flatMap itemLine ++ [']']

namespace Setting

/-- The written value of a setting. -/
def write : Setting → List Char
  | .text s => quote s
  | .number n => Nat.toDigits 10 n
  | .texts ss => writeTexts ss

end Setting

namespace Settings

/-- Settings, each on a line of its own or several. -/
def write (settings : Settings) : List Char :=
  settings.flatMap fun (name, setting) => name.toList ++ [' ', '=', ' '] ++ setting.write ++ ['\n']

end Settings

/-- A section with its header. -/
def writeSection (name : String) (settings : Settings) : List Char :=
  '\n' :: '[' :: name.toList ++ [']', '\n'] ++ settings.write

/-- A text of settings, the first of them outside sections. -/
def write (top : Settings) (sections : List (String × Settings)) : String :=
  String.ofList (top.write ++ sections.flatMap fun (name, settings) => writeSection name settings)

end Toml

end Automation
