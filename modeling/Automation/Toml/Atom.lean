import Automation.Instant
import Automation.Json.Document
import Automation.Toml.Value

/-
Values of TOML that stand without quotes: truth values, numbers, dates and times.
-/

namespace Automation

namespace Toml

/-- Digits without the underscores between them.  An underscore has a digit on either side. -/
def digits? (isDigit : Char → Bool) : List Char → Option (List Char)
  | [] => none
  | [c] => if isDigit c then some [c] else none
  | c :: '_' :: rest => if isDigit c then (digits? isDigit rest).map (c :: ·) else none
  | c :: rest => if isDigit c then (digits? isDigit rest).map (c :: ·) else none

/-- The number that digits of a base make. -/
def numberOf (base : Nat) (ds : List Char) : Nat :=
  ds.foldl (fun n d => n * base + (Document.hexValue? d).getD 0) 0

/-- Digits of a base other than ten. -/
def based? (base : Nat) (cs : List Char) : Option Nat :=
  (digits? (fun c => ((Document.hexValue? c).map fun v => decide (v < base)).getD false) cs).map
    (numberOf base)

/-- Decimal digits that do not start with a zero, other than zero itself. -/
def whole? (cs : List Char) : Option (List Char) :=
  match digits? Char.isDigit cs with
  | some ('0' :: _ :: _) => none
  | found => found

/-- The sign of a number, if it has one, and the rest. -/
def splitSign : List Char → Bool × List Char
  | '-' :: rest => (true, rest)
  | '+' :: rest => (false, rest)
  | cs => (false, cs)

/-- The least number beyond the integers. -/
def integerLimit : Int := 0x100000000000000000000000000000000

/-- The least integer. -/
def leastInteger : Int := -0x80000000000000000000000000000000

def inRange (n : Int) : Option Int :=
  if leastInteger ≤ n ∧ n < integerLimit then some n else none

/-- An integer.  Only a decimal one has a sign. -/
def integer? (cs : List Char) : Option Int :=
  match cs with
  | '0' :: 'x' :: rest => (based? 16 rest).bind fun n => inRange n
  | '0' :: 'o' :: rest => (based? 8 rest).bind fun n => inRange n
  | '0' :: 'b' :: rest => (based? 2 rest).bind fun n => inRange n
  | _ =>
      let (negative, cs) := splitSign cs
      (whole? cs).bind fun ds =>
        let n : Int := numberOf 10 ds
        inRange (if negative then -n else n)

def isFigure (c : Char) : Bool := c.isDigit || c == '_'

/-- The exponent of a number, which may be missing. -/
def exponent? : List Char → Option (Option (Bool × List Char))
  | [] => some none
  | c :: rest =>
      if c = 'e' ∨ c = 'E' then
        let (down, cs) := splitSign rest
        (digits? Char.isDigit cs).map fun ds => some (down, ds)
      else none

/-- The spelling of a number with a fraction, an exponent, or both. -/
def decimal? (cs : List Char) : Option Numeral := do
  let (negative, cs) := splitSign cs
  let ds ← whole? (cs.takeWhile isFigure)
  match cs.dropWhile isFigure with
  | '.' :: rest =>
      let fraction ← digits? Char.isDigit (rest.takeWhile isFigure)
      let exponent ← exponent? (rest.dropWhile isFigure)
      pure ⟨negative, ds, fraction, exponent⟩
  | rest =>
      let exponent ← exponent? rest
      if exponent.isNone then none else pure ⟨negative, ds, [], exponent⟩

/-- Whether something is a number that is no integer, and not too large. -/
def isFloat (cs : List Char) : Bool :=
  let (_, unsigned) := splitSign cs
  unsigned == ['i', 'n', 'f'] || unsigned == ['n', 'a', 'n'] ||
    ((decimal? cs).bind Numeral.value?).isSome

/-- A number of exactly so many digits. -/
def fixed? (width : Nat) (cs : List Char) : Option (Nat × List Char) :=
  let ds := cs.take width
  if ds.length = width ∧ ds.all Char.isDigit then some (Instant.natOfDigits ds, cs.drop width)
  else none

def expect? (c : Char) : List Char → Option (List Char)
  | d :: rest => if d = c then some rest else none
  | [] => none

/-- What follows a date. -/
def date? (cs : List Char) : Option (List Char) := do
  let (year, cs) ← fixed? 4 cs
  let cs ← expect? '-' cs
  let (month, cs) ← fixed? 2 cs
  let cs ← expect? '-' cs
  let (day, cs) ← fixed? 2 cs
  if 1 ≤ month ∧ month ≤ 12 ∧ 1 ≤ day ∧ day ≤ Instant.daysInMonth year month then some cs else none

/-- What follows the seconds of a time, which may be missing. -/
def seconds? : List Char → Option (List Char)
  | ':' :: rest => do
      let (second, rest) ← fixed? 2 rest
      if 60 < second then none
      else
        match rest with
        | '.' :: rest =>
            if (rest.takeWhile Char.isDigit).isEmpty then none
            else some (rest.dropWhile Char.isDigit)
        | rest => some rest
  | cs => some cs

/-- What follows the hours and minutes of a time. -/
def minutes? (cs : List Char) : Option (List Char) := do
  let (hour, cs) ← fixed? 2 cs
  let cs ← expect? ':' cs
  let (minute, cs) ← fixed? 2 cs
  if 23 < hour ∨ 59 < minute then none else some cs

/-- What follows a time. -/
def time? (cs : List Char) : Option (List Char) := (minutes? cs).bind seconds?

/-- Whether something is an offset from UTC, which may be missing. -/
def isOffset : List Char → Bool
  | [] => true
  | 'Z' :: rest => rest.isEmpty
  | 'z' :: rest => rest.isEmpty
  | '+' :: rest => minutes? rest == some []
  | '-' :: rest => minutes? rest == some []
  | _ => false

/-- What separates a time from the date before it. -/
def isDateEnd (c : Char) : Bool := c == 'T' || c == 't' || c == ' '

/-- Whether something is a date, a time, or both with or without an offset. -/
def isMoment (cs : List Char) : Bool :=
  match date? cs with
  | none => time? cs == some []
  | some [] => true
  | some (c :: rest) =>
      isDateEnd c && match time? rest with
        | some rest => isOffset rest
        | none => false

/-- The value of a word without quotes. -/
def atom? (cs : List Char) : Option Value :=
  if cs = ['t', 'r', 'u', 'e'] then some (.boolean true)
  else if cs = ['f', 'a', 'l', 's', 'e'] then some (.boolean false)
  else
    match integer? cs with
    | some n => some (.integer n)
    | none =>
        if isMoment cs then some (.moment (String.ofList cs))
        else if isFloat cs then some (.float (String.ofList cs))
        else none

/-- A character that words without quotes are made of. -/
def isAtomic (c : Char) : Bool :=
  c.isAlphanum || c == '_' || c == '+' || c == '-' || c == '.' || c == ':'

/-- A word without quotes and what follows it.  A date and a time may have one space between
them. -/
def splitAtom (cs : List Char) : List Char × List Char :=
  let word := cs.takeWhile isAtomic
  match cs.dropWhile isAtomic with
  | ' ' :: c :: rest =>
      if date? word == some [] && c.isDigit then
        let more := (c :: rest).takeWhile isAtomic
        (word ++ ' ' :: more, (c :: rest).dropWhile isAtomic)
      else (word, ' ' :: c :: rest)
  | rest => (word, rest)

end Toml

end Automation
