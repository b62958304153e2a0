import Automation.Json.Document

/-
Quoted texts of TOML.

There are four ways to quote: basic texts have escapes and literal ones have none, and each of the
two may be short, within a line, or long, over several.  Writing takes the first way that needs no
escapes, and escapes only where there is no such way.
-/

namespace Automation

namespace Toml

/-- Space within a line. -/
def isBlank (c : Char) : Bool := c == ' ' || c == '\t'

/-- A control character that cannot stand anywhere as it is. -/
def isControl (c : Char) : Bool := (c.toNat < 0x20 || c.toNat == 0x7f) && c != '\t'

/-- Whether a line ends here, apart from space. -/
def endsLine (cs : List Char) : Bool :=
  match cs.dropWhile isBlank with
  | '\n' :: _ => true
  | '\r' :: '\n' :: _ => true
  | _ => false

/-- The character of a one-letter escape. -/
def shortEscape? : Char → Option Char
  | 'b' => some '\x08'
  | 't' => some '\t'
  | 'n' => some '\n'
  | 'f' => some '\x0c'
  | 'r' => some '\r'
  | 'e' => some '\x1b'
  | '\"' => some '\"'
  | '\\' => some '\\'
  | _ => none

/-- The character whose number is written with these hexadecimal digits. -/
def numbered? (ds : List Char) : Option Char := do
  let n ← ds.foldlM (fun n d => (Document.hexValue? d).map fun v => n * 16 + v) 0
  if n.isValidChar then some (Char.ofNat n) else none

/-- A text with one more character in front, both of which may be missing. -/
def add (c : Option Char) (more : Option (List Char × List Char)) :
    Option (List Char × List Char) :=
  match c, more with
  | some c, some (cs, rest) => some (c :: cs, rest)
  | _, _ => none

/-- The end of a long text behind its first quote, if it is there: up to two quotes belong to the
text. -/
def longEnd? (quote : Char) : List Char → Option (List Char × List Char)
  | a :: b :: rest =>
      if a = quote ∧ b = quote then
        match rest with
        | c :: d :: more =>
            if c = quote ∧ d = quote then some ([quote, quote], more)
            else if c = quote then some ([quote], d :: more)
            else some ([], rest)
        | [c] => if c = quote then some ([quote], []) else some ([], rest)
        | [] => some ([], [])
      else none
  | _ => none

/-- The rest of a basic text and what follows it.  The second argument tells that a backslash has
joined this line to the one before it, so that space is passed over. -/
def basic? (long : Bool) : Bool → List Char → Option (List Char × List Char)
  | _, [] => none
  | _, '\\' :: 'x' :: a :: b :: rest => add (numbered? [a, b]) (basic? long false rest)
  | _, '\\' :: 'u' :: a :: b :: c :: d :: rest =>
      add (numbered? [a, b, c, d]) (basic? long false rest)
  | _, '\\' :: 'U' :: a :: b :: c :: d :: e :: f :: g :: h :: rest =>
      add (numbered? [a, b, c, d, e, f, g, h]) (basic? long false rest)
  | _, '\\' :: c :: rest =>
      if long && endsLine (c :: rest) then basic? long true (c :: rest)
      else add (shortEscape? c) (basic? long false rest)
  | _, '\"' :: rest =>
      if long then
        match longEnd? '\"' rest with
        | some found => some found
        | none => add (some '\"') (basic? long false rest)
      else some ([], rest)
  | joined, '\r' :: '\n' :: rest =>
      if !long then none
      else if joined then basic? long true rest
      else add (some '\r') (add (some '\n') (basic? long false rest))
  | joined, c :: rest =>
      if joined && (isBlank c || c == '\n') then basic? long true rest
      else if c = '\\' ∨ (isControl c ∧ ¬ (long ∧ c = '\n')) then none
      else add (some c) (basic? long false rest)

/-- The rest of a literal text and what follows it. -/
def literal? (long : Bool) : List Char → Option (List Char × List Char)
  | [] => none
  | '\'' :: rest =>
      if long then
        match longEnd? '\'' rest with
        | some found => some found
        | none => add (some '\'') (literal? long rest)
      else some ([], rest)
  | '\r' :: '\n' :: rest =>
      if long then add (some '\r') (add (some '\n') (literal? long rest)) else none
  | c :: rest =>
      if isControl c ∧ ¬ (long ∧ c = '\n') then none else add (some c) (literal? long rest)

/-- What follows the opening of a long text: a line end there is not part of it. -/
def afterOpening : List Char → List Char
  | '\n' :: rest => rest
  | '\r' :: '\n' :: rest => rest
  | cs => cs

/-- A quoted text, short or long, and what follows it. -/
def quoted? : List Char → Option (List Char × List Char)
  | '\"' :: '\"' :: '\"' :: rest => basic? true false (afterOpening rest)
  | '\"' :: rest => basic? false false rest
  | '\'' :: '\'' :: '\'' :: rest => literal? true (afterOpening rest)
  | '\'' :: rest => literal? false rest
  | _ => none

/-- A way to quote. -/
inductive Style where
  | basic
  | literal
  | longBasic
  | longLiteral
deriving Repr, DecidableEq

/-- Whether more than so many quotes stand side by side, some of them just before. -/
def hasRun (quote : Char) (most : Nat) : Nat → List Char → Bool
  | _, [] => false
  | n, c :: rest =>
      if c = quote then most < n + 1 || hasRun quote most (n + 1) rest
      else hasRun quote most 0 rest

/-- The way in which a text is quoted. -/
def Style.ofText (cs : List Char) : Style :=
  let controls := cs.any fun c => isControl c && c != '\n'
  let lines := cs.contains '\n'
  if !controls && !cs.contains '\\' && !cs.contains '\"' && !lines then .basic
  else if !controls && !cs.contains '\'' && !lines then .literal
  else if !controls && !cs.contains '\\' && !hasRun '\"' 2 0 cs then .longBasic
  else if !controls && !hasRun '\'' 2 0 cs then .longLiteral
  else if lines then .longBasic
  else .basic

/-- A hexadecimal digit. -/
def hexDigit (n : Nat) : Char := (Nat.digitChar n).toUpper

/-- A character other than a quote in a basic text. -/
def escapeChar (long : Bool) (c : Char) : List Char :=
  if c = '\x08' then ['\\', 'b']
  else if c = '\t' then ['\\', 't']
  else if c = '\n' then if long then ['\n'] else ['\\', 'n']
  else if c = '\x0c' then ['\\', 'f']
  else if c = '\r' then ['\\', 'r']
  else if c = '\\' then ['\\', '\\']
  else if isControl c then
    ['\\', 'u', '0', '0', hexDigit (c.toNat / 16), hexDigit (c.toNat % 16)]
  else [c]

/-- The characters of a basic text.  The number tells how many quotes stand just before: a long
text escapes every third one, a short one each. -/
def escaped (long : Bool) : Nat → List Char → List Char
  | _, [] => []
  | n, c :: rest =>
      if c = '\"' then
        if (if long then 2 else 0) < n + 1 then '\\' :: '\"' :: escaped long 0 rest
        else '\"' :: escaped long (n + 1) rest
      else escapeChar long c ++ escaped long 0 rest

/-- A text between long quotes.  One that has several lines starts on a line of its own. -/
def long (quote : Char) (cs written : List Char) : List Char :=
  let quotes := [quote, quote, quote]
  quotes ++ (if cs.contains '\n' then ['\n'] else []) ++ written ++ quotes

/-- A text in quotes of some style. -/
def Style.write (cs : List Char) : Style → List Char
  | .basic => '\"' :: escaped false 0 cs ++ ['\"']
  | .literal => '\'' :: cs ++ ['\'']
  | .longBasic => long '\"' cs (escaped true 0 cs)
  | .longLiteral => long '\'' cs cs

/-- A text in quotes. -/
def quote (s : String) : List Char := (Style.ofText s.toList).write s.toList

end Toml

end Automation
