import Automation.Shell.Arithmetic

/-
What `echo` and `printf` print.

Backslashes are read in texts as well as in formats.  A text may end the output early.
-/

namespace Automation.Shell

namespace Printing

/-- The number of up to so many octal digits, and what follows them. -/
def octal : Nat → Nat → List Char → Nat × List Char
  | 0, value, cs => (value, cs)
  | _ + 1, value, [] => (value, [])
  | count + 1, value, c :: cs =>
      if '0' ≤ c ∧ c ≤ '7' then octal count (value * 8 + (c.toNat - '0'.toNat)) cs
      else (value, c :: cs)

/-- The character of a one-letter escape. -/
def shortEscape? : Char → Option Char
  | 'a' => some '\x07'
  | 'b' => some '\x08'
  | 'f' => some '\x0c'
  | 'n' => some '\n'
  | 'r' => some '\r'
  | 't' => some '\t'
  | 'v' => some '\x0b'
  | '\\' => some '\\'
  | _ => none

/-- What a backslash in a format stands for, and what follows it. -/
def formatEscape (cs : List Char) : List Char × List Char :=
  match cs with
  | [] => (['\\'], [])
  | c :: rest =>
      if '0' ≤ c ∧ c ≤ '7' then
        let (value, rest) := octal 3 0 cs
        ([Char.ofNat (value % 256)], rest)
      else
        match shortEscape? c with
        | some d => ([d], rest)
        | none => (['\\'], cs)

/-- The characters of a text with backslashes, and whether the output goes on after it. -/
def text : Nat → List Char → List Char × Bool
  | 0, _ => ([], true)
  | _ + 1, [] => ([], true)
  | _ + 1, '\\' :: 'c' :: _ => ([], false)
  | fuel + 1, '\\' :: '0' :: rest =>
      let (value, rest) := octal 3 0 rest
      let (more, goesOn) := text fuel rest
      (Char.ofNat (value % 256) :: more, goesOn)
  | fuel + 1, '\\' :: rest =>
      let (found, rest) := formatEscape rest
      let (more, goesOn) := text fuel rest
      (found ++ more, goesOn)
  | fuel + 1, c :: rest =>
      let (more, goesOn) := text fuel rest
      (c :: more, goesOn)

/-- The characters of a text with backslashes. -/
def textOf (s : Octets) : List Char × Bool := text (s.length + 1) s.toList

/-- The words of `echo`, and what ends them. -/
def echoWords : List Octets → List Char → List Char
  | [], ending => ending
  | [last], ending =>
      let (cs, goesOn) := textOf last
      if goesOn then cs ++ ending else cs
  | first :: rest, ending =>
      let (cs, goesOn) := textOf first
      if goesOn then cs ++ ' ' :: echoWords rest ending else cs

/-- What `echo` prints. -/
def echo : List Octets → Octets
  | "-n" :: words => String.ofList (echoWords words [])
  | words => String.ofList (echoWords words ['\n'])

/-- A conversion of a format. -/
structure Conversion where
  leftAligned : Bool
  zeroPadded : Bool
  signed : Bool
  width : Nat
  precision : Option Nat

/-- Pad a text to the width of a conversion. -/
def pad (c : Conversion) (cs : List Char) : List Char :=
  let missing := c.width - cs.length
  if c.leftAligned then cs ++ List.replicate missing ' '
  else List.replicate missing ' ' ++ cs

/-- A number with its sign, padded to the width of a conversion. -/
def number (c : Conversion) (n : Int) (ds : List Char) : List Char :=
  let ds := List.replicate (c.precision.getD 0 - ds.length) '0' ++ ds
  let sign := if n < 0 then ['-'] else if c.signed then ['+'] else []
  if c.zeroPadded && !c.leftAligned && c.precision.isNone then
    sign ++ List.replicate (c.width - sign.length - ds.length) '0' ++ ds
  else pad c (sign ++ ds)

/-- The unsigned word of a number. -/
def unsignedWord (n : Int) : Nat := (n % 0x10000000000000000).toNat

/-- The number that an argument stands for; one with a quote in front is a character. -/
def argumentNumber? (s : Octets) : Option Int :=
  match s.toList with
  | '\'' :: c :: _ => some c.toNat
  | '\"' :: c :: _ => some c.toNat
  | _ => Arithmetic.ofValue? s

/-- The number at the start of an argument that is no number as a whole. -/
def leadingNumber (s : Octets) : Int :=
  let (negative, cs) := match s.toList with
    | '-' :: rest => (true, rest)
    | cs => (false, cs)
  let n : Int := (cs.takeWhile Char.isDigit).foldl
    (fun n d => n * 10 + (d.toNat - '0'.toNat : Nat)) 0
  if negative then -n else n

/-- What is wrong with an argument that should be a number. -/
def numberProblem (s : Octets) : Octets :=
  let cs := match s.toList with
    | '-' :: rest => rest
    | cs => cs
  s ++ if (cs.head?.map Char.isDigit).getD false then ": not completely converted"
    else ": expected numeric value"

/-- What is left of a format and its arguments, and what went wrong. -/
structure Progress where
  printed : List Char
  arguments : List Octets
  complaints : List Octets
  goesOn : Bool
  used : Bool

/-- The flags, the width and the precision at the start of a conversion. -/
def conversion (cs : List Char) : Conversion × List Char :=
  let flags := cs.takeWhile fun c => c == '-' || c == '0' || c == '+' || c == ' ' || c == '#'
  let rest := cs.drop flags.length
  let ds := rest.takeWhile Char.isDigit
  let width := ds.foldl (fun n d => n * 10 + (d.toNat - '0'.toNat)) 0
  let rest := rest.drop ds.length
  let (precision, rest) := match rest with
    | '.' :: more =>
        let ps := more.takeWhile Char.isDigit
        (some (ps.foldl (fun n d => n * 10 + (d.toNat - '0'.toNat)) 0), more.drop ps.length)
    | _ => (none, rest)
  (⟨flags.contains '-', flags.contains '0', flags.contains '+', width, precision⟩, rest)

/-- Print one argument as a conversion says. -/
def convert (c : Conversion) (letter : Char) (p : Progress) : Progress :=
  let argument := p.arguments.headD ""
  let p := { p with arguments := p.arguments.tail, used := true }
  let cut (cs : List Char) := match c.precision with
    | some n => cs.take n
    | none => cs
  match letter with
  | 's' => { p with printed := p.printed ++ pad c (cut argument.toList) }
  | 'b' =>
      let (cs, goesOn) := textOf argument
      { p with printed := p.printed ++ pad c (cut cs), goesOn := goesOn }
  | 'c' => { p with printed := p.printed ++ pad c (argument.toList.take 1) }
  | _ =>
      let n := (argumentNumber? argument).getD (leadingNumber argument)
      let complaints := match argumentNumber? argument with
        | some _ => p.complaints
        | none => p.complaints ++ [numberProblem argument]
      let ds := match letter with
        | 'x' => Nat.toDigits 16 (unsignedWord n)
        | 'X' => (Nat.toDigits 16 (unsignedWord n)).map Char.toUpper
        | 'o' => Nat.toDigits 8 (unsignedWord n)
        | 'u' => Nat.toDigits 10 (unsignedWord n)
        | _ => Nat.toDigits 10 n.natAbs
      let sign := if letter == 'd' || letter == 'i' then n else 0
      { p with printed := p.printed ++ number c sign ds, complaints := complaints }

/-- Print a format once. -/
def once : Nat → List Char → Progress → Progress
  | 0, _, p => p
  | _ + 1, [], p => p
  | fuel + 1, '%' :: '%' :: rest, p => once fuel rest { p with printed := p.printed ++ ['%'] }
  | fuel + 1, '%' :: rest, p =>
      match conversion rest with
      | (_, []) =>
          { p with complaints := p.complaints ++ ["missing format character"], goesOn := false }
      | (c, letter :: rest) =>
          if "sbcdiuxXo".toList.contains letter then
            let p := convert c letter p
            if p.goesOn then once fuel rest p else p
          else
            let directive := String.ofList ['%', letter]
            { p with
              complaints := p.complaints ++ [directive ++ ": invalid directive"], goesOn := false }
  | fuel + 1, '\\' :: rest, p =>
      let (found, rest) := formatEscape rest
      once fuel rest { p with printed := p.printed ++ found }
  | fuel + 1, c :: rest, p => once fuel rest { p with printed := p.printed ++ [c] }

/-- Print a format for as long as it uses up arguments. -/
def repeated : Nat → List Char → Progress → Progress
  | 0, _, p => p
  | fuel + 1, format, p =>
      let p := once (format.length + 1) format { p with used := false }
      if p.goesOn && p.used && !p.arguments.isEmpty then repeated fuel format p else p

/-- What `printf` prints, and what it complains about. -/
structure Printed where
  text : Octets
  complaints : List Octets

/-- What `printf` prints. -/
def format (source : Octets) (arguments : List Octets) : Printed :=
  let p := repeated (arguments.length + 1) source.toList ⟨[], arguments, [], true, false⟩
  ⟨String.ofList p.printed, p.complaints⟩

end Printing

end Automation.Shell
