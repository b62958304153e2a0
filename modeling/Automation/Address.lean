import Automation.Text.Quoted

/-
Addresses of programs.

An address becomes a file name, so it is made of letters, digits, hyphens and underscores alone.
-/

namespace Automation

/-- A character that may stand in an address. -/
def isAddressChar (c : Char) : Bool :=
  c.isAlphanum || c == '-' || c == '_'

/-- A text that can name the files of a program. -/
def isAddress (address : String) : Bool :=
  !address.isEmpty && address.toList.all isAddressChar

end Automation
