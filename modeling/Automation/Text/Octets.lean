import Automation.Text.Utf8

/-
Octets as characters.

Programs that work on octets are easier to say on characters.  A text of octets holds characters
below 256 only, one for each octet.
-/

namespace Automation

/-- A text in which every character stands for one octet. -/
abbrev Octets := String

namespace Octets

/-- The characters of some bytes. -/
def ofBytes (bytes : ByteArray) : Octets :=
  String.ofList (bytes.data.toList.map fun b => Char.ofNat b.toNat)

/-- The bytes of some characters. -/
def toBytes (s : Octets) : ByteArray :=
  ⟨(s.toList.map fun c => c.toNat.toUInt8).toArray⟩

/-- The octets of a text. -/
def encode (s : String) : Octets := ofBytes s.toUTF8

/-- The text of some octets. -/
def decode (s : Octets) : String := Text.lossy (toBytes s)

/-- The characters after the first line feed, and those up to it with it. -/
def splitLine (cs : List Char) : List Char × List Char :=
  match cs.span (· ≠ '\n') with
  | (line, '\n' :: rest) => (line ++ ['\n'], rest)
  | (line, rest) => (line, rest)

end Octets

end Automation
