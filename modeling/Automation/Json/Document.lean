import Automation.Json.Numeral

/-
JSON documents as they are written.

A document keeps its members in the order they stand in, repeated names included, because what a
repeated name means depends on who reads.  A number out of range and a text with half a surrogate
pair have a spelling but no value; they are kept without one, and only a reader that asks for the
value minds.
-/

namespace Automation

/-- A JSON document.  Leaves that are well written but have no value hold `none`. -/
inductive Document where
  | null
  | boolean (value : Bool)
  | number (value : Option Number)
  | text (value : Option String)
  | array (items : List Document)
  | object (members : List (Option String × Document))
deriving Repr, Inhabited

namespace Document

/-- The four characters that may stand between tokens. -/
def isSpace (c : Char) : Bool :=
  c == ' ' || c == '\t' || c == '\n' || c == '\r'

def skipSpace (cs : List Char) : List Char := cs.dropWhile isSpace

/-- The value of a hexadecimal digit. -/
def hexValue? (c : Char) : Option Nat :=
  if '0' ≤ c ∧ c ≤ '9' then some (c.toNat - '0'.toNat)
  else if 'a' ≤ c ∧ c ≤ 'f' then some (c.toNat - 'a'.toNat + 10)
  else if 'A' ≤ c ∧ c ≤ 'F' then some (c.toNat - 'A'.toNat + 10)
  else none

/-- The value of four hexadecimal digits. -/
def hexWord? (a b c d : Char) : Option Nat := do
  let a ← hexValue? a
  let b ← hexValue? b
  let c ← hexValue? c
  let d ← hexValue? d
  pure (((a * 16 + b) * 16 + c) * 16 + d)

/-- A piece of a text: a character, or a 16-bit unit written by its number. -/
inductive Piece where
  | char (c : Char)
  | unit (n : Nat)
deriving Repr, DecidableEq

/-- The character of a one-letter escape. -/
def shortEscape? : Char → Option Char
  | '\"' => some '\"'
  | '\\' => some '\\'
  | '/' => some '/'
  | 'b' => some '\x08'
  | 'f' => some '\x0c'
  | 'n' => some '\n'
  | 'r' => some '\r'
  | 't' => some '\t'
  | _ => none

/-- The pieces of a text up to its closing quote, and what follows it.  Control characters must be
escaped. -/
def pieces : List Char → Option (List Piece × List Char)
  | [] => none
  | '\"' :: rest => some ([], rest)
  | '\\' :: 'u' :: a :: b :: c :: d :: rest => do
      let n ← hexWord? a b c d
      let (more, rest) ← pieces rest
      pure (.unit n :: more, rest)
  | '\\' :: e :: rest => do
      let c ← shortEscape? e
      let (more, rest) ← pieces rest
      pure (.char c :: more, rest)
  | c :: rest =>
      if c.toNat < 0x20 ∨ c = '\\' then none
      else do
        let (more, rest) ← pieces rest
        pure (.char c :: more, rest)

def isHighSurrogate (n : Nat) : Bool := 0xd800 ≤ n && n ≤ 0xdbff

def isLowSurrogate (n : Nat) : Bool := 0xdc00 ≤ n && n ≤ 0xdfff

/-- The characters of some pieces: two surrogate units make one character, and one alone none. -/
def assemble : List Piece → Option (List Char)
  | [] => some []
  | .char c :: more => (assemble more).map (c :: ·)
  | .unit high :: .unit low :: more =>
      if isHighSurrogate high then
        if isLowSurrogate low then
          let n := 0x10000 + (high - 0xd800) * 0x400 + (low - 0xdc00)
          (assemble more).map (Char.ofNat n :: ·)
        else none
      else if isLowSurrogate high then none
      else (assemble (.unit low :: more)).map (Char.ofNat high :: ·)
  | .unit n :: more =>
      if isHighSurrogate n || isLowSurrogate n then none
      else (assemble more).map (Char.ofNat n :: ·)

/-- The text after an opening quote, and what follows its closing quote. -/
def text? (cs : List Char) : Option (Option String × List Char) :=
  (pieces cs).map fun (found, rest) => ((assemble found).map String.ofList, rest)

def splitDigits (cs : List Char) : List Char × List Char :=
  (cs.takeWhile Char.isDigit, cs.dropWhile Char.isDigit)

/-- The exponent of a numeral, if it has one. -/
def exponent? (cs : List Char) : Option (Option (Bool × List Char) × List Char) :=
  match cs with
  | c :: rest =>
      if c = 'e' ∨ c = 'E' then
        let (down, rest) := match rest with
          | '-' :: more => (true, more)
          | '+' :: more => (false, more)
          | more => (false, more)
        let (ds, rest) := splitDigits rest
        if ds = [] then none else some (some (down, ds), rest)
      else some (none, cs)
  | [] => some (none, cs)

/-- The fraction and the exponent of a numeral whose whole part has been read. -/
def numeralTail? (negative : Bool) (whole cs : List Char) : Option (Numeral × List Char) :=
  match cs with
  | '.' :: rest =>
      let (ds, rest) := splitDigits rest
      if ds = [] then none
      else (exponent? rest).map fun (e, rest) => (⟨negative, whole, ds, e⟩, rest)
  | _ => (exponent? cs).map fun (e, rest) => (⟨negative, whole, [], e⟩, rest)

/-- A numeral without its sign: no leading zeros, and digits on both sides of a point. -/
def unsignedNumeral? (negative : Bool) (cs : List Char) : Option (Numeral × List Char) :=
  match splitDigits cs with
  | ([], _) => none
  | ('0' :: _ :: _, _) => none
  | (ds, rest) => numeralTail? negative ds rest

def numeral? : List Char → Option (Numeral × List Char)
  | '-' :: rest => unsignedNumeral? true rest
  | cs => unsignedNumeral? false cs

mutual

/-- Read one document in front of a list of characters.  The first argument bounds the nesting. -/
def value? : Nat → List Char → Option (Document × List Char)
  | 0, _ => none
  | fuel + 1, cs =>
      match skipSpace cs with
      | 'n' :: 'u' :: 'l' :: 'l' :: rest => some (.null, rest)
      | 't' :: 'r' :: 'u' :: 'e' :: rest => some (.boolean true, rest)
      | 'f' :: 'a' :: 'l' :: 's' :: 'e' :: rest => some (.boolean false, rest)
      | '\"' :: rest => (text? rest).map fun (t, rest) => (.text t, rest)
      | '[' :: rest =>
          match skipSpace rest with
          | ']' :: rest => some (.array [], rest)
          | rest => (items? fuel rest).map fun (ds, rest) => (.array ds, rest)
      | '\x7b' :: rest =>
          match skipSpace rest with
          | '\x7d' :: rest => some (.object [], rest)
          | rest => (members? fuel rest).map fun (ms, rest) => (.object ms, rest)
      | cs => (numeral? cs).map fun (n, rest) => (.number n.value?, rest)

/-- The items of an array that is not empty, up to its closing bracket. -/
def items? : Nat → List Char → Option (List Document × List Char)
  | 0, _ => none
  | fuel + 1, cs => do
      let (first, rest) ← value? fuel cs
      match skipSpace rest with
      | ',' :: rest => (items? fuel rest).map fun (more, rest) => (first :: more, rest)
      | ']' :: rest => some ([first], rest)
      | _ => none

/-- The members of an object that is not empty, up to its closing brace. -/
def members? : Nat → List Char → Option (List (Option String × Document) × List Char)
  | 0, _ => none
  | fuel + 1, cs =>
      match skipSpace cs with
      | '\"' :: rest => do
          let (name, rest) ← text? rest
          match skipSpace rest with
          | ':' :: rest => do
              let (first, rest) ← value? fuel rest
              match skipSpace rest with
              | ',' :: rest =>
                  (members? fuel rest).map fun (more, rest) => ((name, first) :: more, rest)
              | '\x7d' :: rest => some ([(name, first)], rest)
              | _ => none
          | _ => none
      | _ => none

end

/-- Read a text that is one document and nothing else. -/
def parse? (source : String) : Option Document := do
  let cs := source.toList
  let (document, rest) ← value? (cs.length + 1) cs
  if skipSpace rest = [] then some document else none

end Document

end Automation
