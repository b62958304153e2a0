/-
Doubles written with the fewest digits that read back.

The bits of a double are taken apart into `m * 2 ^ q`.  The digits are those of the shortest
decimal number in the interval of reals that round to the double, found by exact arithmetic on
natural numbers: digits are generated until what is left lies within half a unit of the last
binary place.
-/

namespace Automation.Double

/-- A finite double apart: its sign, significand and binary exponent. -/
structure Parts where
  negative : Bool
  significand : Nat
  exponent : Int
deriving Repr, DecidableEq

/-- The parts of a double given by its bits. -/
def parts (bits : UInt64) : Parts :=
  let n := bits.toNat
  let field : Nat := n / 0x10000000000000 % 0x800
  let low : Nat := n % 0x10000000000000
  if field = 0 then ⟨n / 0x8000000000000000 = 1, low, -1074⟩
  else ⟨n / 0x8000000000000000 = 1, low + 0x10000000000000, (field : Int) - 1075⟩

/-- A value between its neighbours, all over one denominator: the value is `value / unit`, and the
reals less than `above` over it or `below` under it round to it, the ends included when
`closed`. -/
structure Interval where
  value : Nat
  unit : Nat
  above : Nat
  below : Nat
  closed : Bool

/-- The interval of reals that round to a double. -/
def interval (p : Parts) : Interval :=
  let uneven := p.significand = 0x10000000000000 ∧ p.exponent ≠ -1074
  let k := if uneven then 2 else 1
  let up := Nat.pow 2 p.exponent.toNat
  let down := Nat.pow 2 (-p.exponent).toNat
  ⟨p.significand * up * 2 * k, down * 2 * k, up * k, up, p.significand % 2 = 0⟩

/-- The value and all above it that round to it are below ten to the `k`. -/
def Interval.isBelow (i : Interval) (k : Int) : Bool :=
  let value := (i.value + i.above) * Nat.pow 10 (-k).toNat
  let bound := i.unit * Nat.pow 10 k.toNat
  if i.closed then value < bound else value ≤ bound

/-- The least `k` with the interval below ten to the `k`, from a guess that is not above it. -/
def Interval.magnitude : Nat → Interval → Int → Int
  | 0, _, k => k
  | fuel + 1, i, k => if i.isBelow k then k else magnitude fuel i (k + 1)

/-- Generate the digits of `value / unit`, which is below one, until the rest is close enough to
be dropped or rounded up. -/
def generate : Nat → Interval → List Nat
  | 0, _ => []
  | fuel + 1, i =>
      let scaled := i.value * 10
      let digit := scaled / i.unit
      let rest := scaled % i.unit
      let above := i.above * 10
      let below := i.below * 10
      let canDrop := if i.closed then rest ≤ below else rest < below
      let canRaise := if i.closed then i.unit ≤ rest + above else i.unit < rest + above
      if canDrop then
        if canRaise then [if rest * 2 < i.unit then digit else digit + 1] else [digit]
      else if canRaise then [digit + 1]
      else digit :: generate fuel ⟨rest, i.unit, above, below, i.closed⟩

/-- The shortest digits of a positive double and the place of the point: the value is
`0.d₁d₂… * 10 ^ place`. -/
def shortest (p : Parts) : List Nat × Int :=
  let i := interval p
  let guess : Int :=
    if i.unit ≤ i.value then (toString (i.value / i.unit)).length - 1
    else -((toString (i.unit / i.value)).length : Int)
  let k := i.magnitude 8 guess
  let up := Nat.pow 10 (-k).toNat
  let down := Nat.pow 10 k.toNat
  (generate 20 ⟨i.value * up, i.unit * down, i.above * up, i.below * up, i.closed⟩, k)

def digitChars (ds : List Nat) : List Char :=
  ds.map Nat.digitChar

def zeros (n : Nat) : List Char := List.replicate n '0'

/-- Digits with the point in its place and at least one digit on both sides of it. -/
def positional (ds : List Char) (place : Int) : List Char :=
  if place ≤ 0 then ['0', '.'] ++ zeros (-place).toNat ++ ds
  else if ds.length ≤ place.toNat then ds ++ zeros (place.toNat - ds.length) ++ ['.', '0']
  else ds.take place.toNat ++ ['.'] ++ ds.drop place.toNat

/-- One digit, the point, the others, and the power of ten. -/
def scientific (ds : List Char) (place : Int) : List Char :=
  let exponent := ('e' :: (toString (place - 1)).toList)
  match ds with
  | [] => exponent
  | [d] => d :: exponent
  | d :: more => d :: '.' :: (more ++ exponent)

def signed (negative : Bool) (text : List Char) : String :=
  String.ofList (if negative then '-' :: text else text)

/-- The text of a double inside a document: positional from `0.00001` to below `10 ^ 16`. -/
def text (bits : UInt64) : String :=
  let p := parts bits
  if p.significand = 0 then signed p.negative "0.0".toList
  else
    let (ds, place) := shortest p
    let cs := digitChars ds
    signed p.negative (if -5 < place ∧ place ≤ 16 then positional cs place else scientific cs place)

/-- The text of a double inside a message: always positional. -/
def plainText (bits : UInt64) : String :=
  let p := parts bits
  if p.significand = 0 then signed p.negative "0.0".toList
  else
    let (ds, place) := shortest p
    signed p.negative (positional (digitChars ds) place)

end Automation.Double
