/-
Octets read as text.

A tool may write anything, so its output is decoded by a machine that never fails: every maximal
run of octets that starts like a character and breaks off becomes one replacement character.
-/

namespace Automation.Text

/-- Where the decoder stands between two octets. -/
inductive DecoderState where
  /-- Between characters. -/
  | start
  /-- Inside a character: the bits so far, the range of the next octet, and the octets owed. -/
  | within (value : Nat) (low high : Nat) (owed : Nat)
deriving Repr, DecidableEq

/-- What stands for octets that are no character. -/
def replacement : Char := '\ufffd'

/-- An octet met between characters: what it yields and the state after it. -/
def decodeFirst (b : Nat) : List Char × DecoderState :=
  if b < 0x80 then ([Char.ofNat b], .start)
  else if 0xc2 ≤ b ∧ b ≤ 0xdf then ([], .within (b % 0x20) 0x80 0xbf 1)
  else if b = 0xe0 then ([], .within 0 0xa0 0xbf 2)
  else if b = 0xed then ([], .within 0xd 0x80 0x9f 2)
  else if 0xe1 ≤ b ∧ b ≤ 0xef then ([], .within (b % 0x10) 0x80 0xbf 2)
  else if b = 0xf0 then ([], .within 0 0x90 0xbf 3)
  else if 0xf1 ≤ b ∧ b ≤ 0xf3 then ([], .within (b % 8) 0x80 0xbf 3)
  else if b = 0xf4 then ([], .within 4 0x80 0x8f 3)
  else ([replacement], .start)

/-- One octet of the decoder.  An octet that cannot go on with the character at hand ends it and
is read again as a first octet. -/
def decodeStep : DecoderState → Nat → List Char × DecoderState
  | .start, b => decodeFirst b
  | .within value low high owed, b =>
      if low ≤ b ∧ b ≤ high then
        let value := value * 0x40 + b % 0x40
        if owed ≤ 1 then ([Char.ofNat value], .start)
        else ([], .within value 0x80 0xbf (owed - 1))
      else
        let (more, state) := decodeFirst b
        (replacement :: more, state)

/-- What the end of the octets yields. -/
def decodeEnd : DecoderState → List Char
  | .start => []
  | .within .. => [replacement]

/-- Decode from a state to the end of the octets. -/
def decodeFrom : DecoderState → List UInt8 → List Char
  | state, [] => decodeEnd state
  | state, b :: rest =>
      let (cs, next) := decodeStep state b.toNat
      cs ++ decodeFrom next rest

/-- The text of some octets, with replacement characters where they are not UTF-8. -/
def lossy (bytes : ByteArray) : String :=
  String.ofList (decodeFrom .start bytes.data.toList)

/-- The text of some octets, when they are UTF-8. -/
def strict? (bytes : ByteArray) : Option String :=
  String.fromUTF8? bytes

end Automation.Text
