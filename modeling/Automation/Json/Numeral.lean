/-
Numbers as documents write them.

A numeral is kept digit by digit until somebody asks for its value.  Whole numbers that fit one of
the two 64-bit ranges are integers; everything else is a double.
-/

namespace Automation

/-- The spelling of a number: sign, digits before the point, digits after it, and the exponent
with its sign. -/
structure Numeral where
  negative : Bool
  whole : List Char
  fraction : List Char
  exponent : Option (Bool × List Char)
deriving Repr, DecidableEq

/-- A number with a value.  A double is held by its bits. -/
inductive Number where
  | integer (value : Int)
  | double (bits : UInt64)
deriving Repr, DecidableEq, Inhabited

namespace Numeral

/-- The least number that 64 bits without a sign do not hold. -/
def wordLimit : Nat := 0x10000000000000000

/-- The bound of the exponents that are read digit by digit. -/
def exponentLimit : Nat := 0x7fffffff

def digitValue (c : Char) : Nat := c.toNat - '0'.toNat

def natOfDigits (ds : List Char) : Nat :=
  ds.foldl (fun n c => n * 10 + digitValue c) 0

/-- Read digits into a significand as long as it fits a word; also the digits that are left. -/
def gather : Nat → List Char → Nat × List Char
  | n, [] => (n, [])
  | n, c :: rest =>
      let next := n * 10 + digitValue c
      if next < wordLimit then gather next rest else (n, c :: rest)

/-- The power of ten as a double. -/
def powerOfTen (n : Nat) : Float := Float.ofScientific 1 false n

/-- Scale a significand by a power of ten, in steps of 308 below the range of doubles. -/
def scale : Nat → Float → Int → Option Float
  | 0, _, _ => none
  | fuel + 1, f, exponent =>
      if exponent.natAbs ≤ 308 then
        if 0 ≤ exponent then
          let g := f * powerOfTen exponent.natAbs
          if g.isInf then none else some g
        else some (f / powerOfTen exponent.natAbs)
      else if f == 0.0 then some f
      else if 0 ≤ exponent then none
      else scale fuel (f / powerOfTen 308) (exponent + 308)

/-- The double with this sign, significand and decimal exponent, unless it is out of range. -/
def double? (negative : Bool) (significand : Nat) (exponent : Int) : Option Number :=
  (scale 4096 significand.toUInt64.toFloat exponent).map fun f =>
    .double (if negative then -f else f).toBits

/-- Apply the written exponent.  One that is too long to count is out of range when it goes up,
and makes zero when it goes down or when there is nothing to scale. -/
def withExponent (numeral : Numeral) (significand : Nat) (exponent : Int) : Option Number :=
  match numeral.exponent with
  | none => double? numeral.negative significand exponent
  | some (down, ds) =>
      let e := natOfDigits ds
      if exponentLimit < e then
        if significand ≠ 0 ∧ ¬ down then none else double? numeral.negative 0 0
      else
        let shifted := if down then exponent - e else exponent + e
        double? numeral.negative significand (max (-exponentLimit - 1) (min exponentLimit shifted))

/-- The value of a numeral; `none` when it is too large for a double. -/
def value? (numeral : Numeral) : Option Number :=
  let (significand, left) := gather 0 numeral.whole
  if left ≠ [] then
    -- Digits beyond the word are counted, not read, before and after the point alike.
    let up : Int := left.length
    match gather significand numeral.fraction with
    | (more, rest) =>
        numeral.withExponent more (up - (numeral.fraction.length - rest.length : Nat))
  else if numeral.fraction = [] ∧ numeral.exponent.isNone then
    if ¬ numeral.negative then some (.integer significand)
    else if significand = 0 ∨ 0x8000000000000000 < significand then double? true significand 0
    else some (.integer (-(significand : Int)))
  else
    match gather significand numeral.fraction with
    | (more, rest) =>
        numeral.withExponent more (-((numeral.fraction.length - rest.length : Nat) : Int))

end Numeral

end Automation
