import Automation.Text.Blank

/-
Points in time and their text.

An instant counts seconds from the start of 1970 in UTC.  It is written as a date, a `T`, a time
and a `Z`, with as many decimals of a second as needed in groups of three.  It is read with any
offset, with one or two digits where two are usual, and with white space before a part.
-/

namespace Automation

/-- A point in time: seconds since the start of 1970 and nanoseconds.  During a leap second the
nanoseconds go on past a thousand million. -/
structure Instant where
  seconds : Int
  nanos : Nat
deriving Repr, DecidableEq, Inhabited

namespace Instant

/-- A day of the calendar. -/
structure Date where
  year : Int
  month : Nat
  day : Nat
deriving Repr, DecidableEq

def isLeapYear (year : Int) : Bool :=
  year % 4 == 0 && (year % 100 != 0 || year % 400 == 0)

def daysInMonth (year : Int) (month : Nat) : Nat :=
  if month = 2 then if isLeapYear year then 29 else 28
  else if month = 4 ∨ month = 6 ∨ month = 9 ∨ month = 11 then 30
  else 31

/-- Days of a date since the start of 1970.  Years are counted from March, so that the day that
leap years add comes last. -/
def Date.toDays (d : Date) : Int :=
  let year := if d.month ≤ 2 then d.year - 1 else d.year
  let era := year.fdiv 400
  let yearOfEra := year - era * 400
  let monthFromMarch : Int := if 2 < d.month then (d.month : Int) - 3 else (d.month : Int) + 9
  let dayOfYear := (153 * monthFromMarch + 2).fdiv 5 + (d.day : Int) - 1
  let dayOfEra := yearOfEra * 365 + yearOfEra.fdiv 4 - yearOfEra.fdiv 100 + dayOfYear
  era * 146097 + dayOfEra - 719468

/-- The date of a day counted from the start of 1970. -/
def Date.ofDays (days : Int) : Date :=
  let z := days + 719468
  let era := z.fdiv 146097
  let dayOfEra := z - era * 146097
  let yearOfEra :=
    (dayOfEra - dayOfEra.fdiv 1460 + dayOfEra.fdiv 36524 - dayOfEra.fdiv 146096).fdiv 365
  let dayOfYear := dayOfEra - (365 * yearOfEra + yearOfEra.fdiv 4 - yearOfEra.fdiv 100)
  let monthFromMarch := (5 * dayOfYear + 2).fdiv 153
  let day := dayOfYear - (153 * monthFromMarch + 2).fdiv 5 + 1
  let month := if monthFromMarch < 10 then monthFromMarch + 3 else monthFromMarch - 9
  let year := yearOfEra + era * 400
  ⟨if month ≤ 2 then year + 1 else year, month.toNat, day.toNat⟩

/-- A number with at least so many digits. -/
def padded (width n : Nat) : List Char :=
  let ds := Nat.toDigits 10 n
  List.replicate (width - ds.length) '0' ++ ds

/-- A year has four digits; one that does not fit them has a sign. -/
def yearText (year : Int) : List Char :=
  if 0 ≤ year ∧ year ≤ 9999 then padded 4 year.toNat
  else (if year < 0 then '-' else '+') :: padded 4 year.natAbs

/-- The decimals of a second, in groups of three. -/
def fractionText (nanos : Nat) : List Char :=
  if nanos = 0 then []
  else if nanos % 1000000 = 0 then '.' :: padded 3 (nanos / 1000000)
  else if nanos % 1000 = 0 then '.' :: padded 6 (nanos / 1000)
  else '.' :: padded 9 nanos

/-- The text of an instant. -/
def text (t : Instant) : String :=
  let date := Date.ofDays (t.seconds.fdiv 86400)
  let time := (t.seconds.fmod 86400).toNat
  let leap := 1000000000 ≤ t.nanos
  let second := time % 60 + if leap then 1 else 0
  let nanos := if leap then t.nanos - 1000000000 else t.nanos
  String.ofList (yearText date.year ++ '-' :: padded 2 date.month ++ '-' :: padded 2 date.day ++
    'T' :: padded 2 (time / 3600) ++ ':' :: padded 2 (time / 60 % 60) ++ ':' :: padded 2 second ++
    fractionText nanos ++ ['Z'])

def skipBlank (cs : List Char) : List Char := cs.dropWhile Text.isBlank

def natOfDigits (ds : List Char) : Nat :=
  ds.foldl (fun n c => n * 10 + (c.toNat - '0'.toNat)) 0

/-- One or more digits, at most so many when there is a bound. -/
def digits? (bound : Option Nat) (cs : List Char) : Option (Nat × List Char) :=
  let all := cs.takeWhile Char.isDigit
  let ds := match bound with
    | some width => all.take width
    | none => all
  if ds = [] then none else some (natOfDigits ds, cs.drop ds.length)

/-- A part of one or two digits. -/
def part? (cs : List Char) : Option (Nat × List Char) :=
  digits? (some 2) (skipBlank cs)

/-- A year; with a sign it may have more than four digits. -/
def year? (cs : List Char) : Option (Int × List Char) :=
  match skipBlank cs with
  | '-' :: rest => (digits? none rest).map fun (n, rest) => (-(n : Int), rest)
  | '+' :: rest => (digits? none rest).map fun (n, rest) => ((n : Int), rest)
  | cs => (digits? (some 4) cs).map fun (n, rest) => ((n : Int), rest)

def expect? (c : Char) (cs : List Char) : Option (List Char) :=
  match skipBlank cs with
  | d :: rest => if d = c then some rest else none
  | [] => none

def date? (cs : List Char) : Option (Date × List Char) := do
  let (year, cs) ← year? cs
  let cs ← expect? '-' cs
  let (month, cs) ← part? cs
  let cs ← expect? '-' cs
  let (day, cs) ← part? cs
  if 1 ≤ month ∧ month ≤ 12 ∧ 1 ≤ day ∧ day ≤ daysInMonth year month ∧
      -262143 ≤ year ∧ year ≤ 262142 then
    pure (⟨year, month, day⟩, cs)
  else none

/-- The decimals after a point; digits after the ninth are passed over. -/
def nanos? (cs : List Char) : Option (Nat × List Char) :=
  match cs with
  | '.' :: rest =>
      let all := rest.takeWhile Char.isDigit
      if all = [] then none
      else
        let ds := all.take 9
        some (natOfDigits ds * Nat.pow 10 (9 - ds.length), rest.drop all.length)
  | cs => some (0, cs)

/-- A time of day as seconds and nanoseconds.  The sixtieth second is a leap second. -/
def time? (cs : List Char) : Option ((Nat × Nat) × List Char) := do
  let (hour, cs) ← part? cs
  let cs ← expect? ':' cs
  let (minute, cs) ← part? cs
  let cs ← expect? ':' cs
  let (second, cs) ← part? cs
  let (nanos, cs) ← nanos? cs
  if 23 < hour ∨ 59 < minute ∨ 60 < second then none
  else
    let minutes := hour * 3600 + minute * 60
    if second = 60 then pure ((minutes + 59, nanos + 1000000000), cs)
    else pure ((minutes + second, nanos), cs)

/-- The sign of an offset; a true minus sign counts as one. -/
def sign? : List Char → Option (Bool × List Char)
  | '+' :: rest => some (false, rest)
  | '-' :: rest => some (true, rest)
  | '\u2212' :: rest => some (true, rest)
  | _ => none

def lower (cs : List Char) : List Char := cs.map Char.toLower

/-- Seconds east of UTC. -/
def offset? (cs : List Char) : Option (Int × List Char) :=
  let cs := skipBlank cs
  if lower (cs.take 3) = ['u', 't', 'c'] then some (0, cs.drop 3)
  else if lower (cs.take 1) = ['z'] then some (0, cs.drop 1)
  else do
    let (negative, cs) ← sign? cs
    match cs with
    | a :: b :: rest =>
        if ¬ (a.isDigit ∧ b.isDigit) then none
        else
          match rest.dropWhile fun c => c == ':' || Text.isBlank c with
          | c :: d :: rest =>
              if ¬ (c.isDigit ∧ d.isDigit) ∨ 60 ≤ natOfDigits [c, d] then none
              else
                let seconds : Int := natOfDigits [a, b] * 3600 + natOfDigits [c, d] * 60
                if 86400 ≤ seconds then none
                else some (if negative then -seconds else seconds, rest)
          | _ => none
    | _ => none

/-- Read an instant. -/
def ofText? (source : String) : Option Instant := do
  let (date, cs) ← date? source.toList
  let cs ← match cs with
    | c :: rest => if c = 'T' ∨ c = 't' ∨ c = ' ' then some rest else none
    | [] => none
  let ((seconds, nanos), cs) ← time? cs
  let (offset, cs) ← offset? cs
  if skipBlank cs ≠ [] then none
  else pure ⟨date.toDays * 86400 + seconds - offset, nanos⟩

end Instant

end Automation
