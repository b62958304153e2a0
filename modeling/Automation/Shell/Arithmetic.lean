import Automation.Table
import Automation.Shell.Script

/-
Arithmetic expressions of scripts: whole numbers of 64 bits, variables, and the usual operators.
-/

namespace Automation.Shell

/-- Why an expression has no value. -/
inductive ArithmeticError where
  | expectingPrimary
  | expectingEnd
  | divisionByZero
  | illegalNumber (s : Octets)
deriving Repr, DecidableEq

/-- The wording of it, for an expression. -/
def ArithmeticError.message (expression : Octets) : ArithmeticError → Octets
  | .expectingPrimary => "arithmetic expression: expecting primary: \"" ++ expression ++ "\""
  | .expectingEnd => "arithmetic expression: expecting EOF: \"" ++ expression ++ "\""
  | .divisionByZero => "arithmetic expression: division by zero: \"" ++ expression ++ "\""
  | .illegalNumber s => "Illegal number: " ++ s

namespace Arithmetic

/-- A number modulo the words of 64 bits. -/
def wrap (n : Int) : Int := Int.bmod n 0x10000000000000000

/-- The number that some digits stand for in a base. -/
def digits? (base : Nat) (cs : List Char) : Option Int :=
  if cs.isEmpty then none
  else
    cs.foldl
      (fun total c => do
        let total ← total
        let d ← if c.isDigit then some (c.toNat - '0'.toNat)
          else if 'a' ≤ c ∧ c ≤ 'f' then some (c.toNat - 'a'.toNat + 10)
          else if 'A' ≤ c ∧ c ≤ 'F' then some (c.toNat - 'A'.toNat + 10)
          else none
        if d < base then some (total * base + d) else none)
      (some 0)

/-- An unsigned number, in any of its bases. -/
def unsigned? : List Char → Option Int
  | '0' :: 'x' :: rest => digits? 16 rest
  | '0' :: 'X' :: rest => digits? 16 rest
  | '0' :: c :: rest => digits? 8 (c :: rest)
  | cs => digits? 10 cs

def isBlankChar (c : Char) : Bool := c == ' ' || c == '\t' || c == '\n'

/-- The number in the value of a variable; an empty one counts as zero. -/
def ofValue? (s : Octets) : Option Int :=
  match s.toList.dropWhile isBlankChar with
  | [] => some 0
  | '-' :: rest => (unsigned? rest).map fun n => -n
  | '+' :: rest => unsigned? rest
  | cs => unsigned? cs

/-- What an evaluation works on: the rest of the expression and the variables. -/
structure State where
  rest : List Char
  values : Table Octets Octets

abbrev Eval (α : Type) := StateT State (Except ArithmeticError) α

/-- Pass blanks and then an operator, if it comes next. -/
def accept (sign : String) : Eval Bool := fun s =>
  let cs := s.rest.dropWhile isBlankChar
  if sign.toList.isPrefixOf cs then .ok (true, { s with rest := cs.drop sign.length })
  else .ok (false, { s with rest := cs })

/-- Binary operators by how tightly they bind, the loosest first.  An operator that is the start
of another one comes after it. -/
def operators : List (List String) :=
  [ ["||"], ["&&"], ["|"], ["^"], ["&"], ["==", "!="], ["<=", ">=", "<", ">"], ["<<", ">>"]
  , ["+", "-"], ["*", "/", "%"] ]

def ofBool (b : Bool) : Int := if b then 1 else 0

/-- The value of a binary operator. -/
def apply (sign : String) (a b : Int) : Except ArithmeticError Int :=
  match sign with
  | "||" => .ok (ofBool (a ≠ 0 || b ≠ 0))
  | "&&" => .ok (ofBool (a ≠ 0 && b ≠ 0))
  | "|" => .ok (wrap ((BitVec.ofInt 64 a ||| BitVec.ofInt 64 b).toInt))
  | "^" => .ok (wrap ((BitVec.ofInt 64 a ^^^ BitVec.ofInt 64 b).toInt))
  | "&" => .ok (wrap ((BitVec.ofInt 64 a &&& BitVec.ofInt 64 b).toInt))
  | "==" => .ok (ofBool (a == b))
  | "!=" => .ok (ofBool (a != b))
  | "<=" => .ok (ofBool (a ≤ b))
  | ">=" => .ok (ofBool (b ≤ a))
  | "<" => .ok (ofBool (a < b))
  | ">" => .ok (ofBool (b < a))
  | "<<" => .ok (wrap (a * Nat.pow 2 (b.toNat % 64)))
  | ">>" => .ok (a.fdiv (Nat.pow 2 (b.toNat % 64)))
  | "+" => .ok (wrap (a + b))
  | "-" => .ok (wrap (a - b))
  | "*" => .ok (wrap (a * b))
  | "/" => if b = 0 then .error .divisionByZero else .ok (wrap (Int.tdiv a b))
  | "%" => if b = 0 then .error .divisionByZero else .ok (Int.tmod a b)
  | _ => .error .expectingPrimary

/-- The operators that an assignment may apply. -/
def assigning : List String := ["<<", ">>", "+", "-", "*", "/", "%", "&", "|", "^"]

/-- The operator of an assignment, if it has one, and what follows its sign. -/
def assignment? (cs : List Char) : Option (Option String × List Char) :=
  match cs with
  | '=' :: rest => if rest.head? = some '=' then none else some (none, rest)
  | _ =>
      assigning.findSome? fun sign =>
        if (sign ++ "=").toList.isPrefixOf cs then some (some sign, cs.drop (sign.length + 1))
        else none

def combine (sign : String) (a b : Int) : Eval Int :=
  match apply sign a b with
  | .ok value => pure value
  | .error e => throw e

/-- The number in a variable. -/
def valueOf (name : Octets) : Eval Int := do
  let value := (Table.get? name (← get).values).getD ""
  match ofValue? value with
  | some n => pure (wrap n)
  | none => throw (.illegalNumber value)

/-- The operator of a level that comes next.  A shorter operator does not count when it is the
start of a longer one of another level. -/
def operatorNext? (level : List String) (cs : List Char) : Option String :=
  let longest := ((operators.flatten ++ ["="]).filter fun sign => sign.toList.isPrefixOf cs)
    |>.foldl (fun best sign => if best.length < sign.length then sign else best) ""
  level.find? (· == longest)

mutual

/-- The value of operators from a level on. -/
def binary : Nat → List (List String) → Eval Int
  | 0, _ => throw .expectingPrimary
  | fuel + 1, [] => primary fuel
  | fuel + 1, level :: tighter => do more fuel level tighter (← binary fuel tighter)

/-- Go on with operators of one level. -/
def more : Nat → List String → List (List String) → Int → Eval Int
  | 0, _, _, value => pure value
  | fuel + 1, level, tighter, value => do
      let _ ← accept ""
      match operatorNext? level (← get).rest with
      | none => pure value
      | some sign =>
          let _ ← accept sign
          let other ← binary fuel tighter
          more fuel level tighter (← combine sign value other)

/-- A number, a variable, or an expression in parentheses, with signs in front. -/
def primary : Nat → Eval Int
  | 0 => throw .expectingPrimary
  | fuel + 1 => do
      if ← accept "(" then
        let value ← expression fuel
        if ← accept ")" then pure value else throw .expectingPrimary
      else if ← accept "-" then pure (wrap (-(← primary fuel)))
      else if ← accept "+" then primary fuel
      else if ← accept "!" then pure (ofBool ((← primary fuel) == 0))
      else if ← accept "~" then pure (-(← primary fuel) - 1)
      else
        let cs := (← get).rest
        let word := cs.takeWhile isNameChar
        match word with
        | [] => throw .expectingPrimary
        | c :: _ =>
            modify fun s => { s with rest := cs.drop word.length }
            if c.isDigit then
              match unsigned? word with
              | some n => pure (wrap n)
              | none => throw .expectingEnd
            else
              valueOf (String.ofList word)

/-- An assignment, a choice, or the value of operators. -/
def expression : Nat → Eval Int
  | 0 => throw .expectingPrimary
  | fuel + 1 => do
      let _ ← accept ""
      let cs := (← get).rest
      let name := String.ofList (cs.takeWhile isNameChar)
      let after := (cs.drop name.length).dropWhile isBlankChar
      match isName name, after with
      | true, after =>
          match assignment? after with
          | none => choice fuel
          | some (sign, rest) =>
              modify fun s => { s with rest := rest }
              let other ← expression fuel
              let value ← match sign with
                | none => pure other
                | some sign => do combine sign (← valueOf name) other
              modify fun s => { s with values := Table.put name (toString value) s.values }
              pure value
      | false, _ => choice fuel

/-- The value of operators, or a choice between two expressions. -/
def choice : Nat → Eval Int
  | 0 => throw .expectingPrimary
  | fuel + 1 => do
      let value ← binary fuel operators
      if ← accept "?" then
        let yes ← expression fuel
        if ← accept ":" then
          let no ← choice fuel
          pure (if value = 0 then no else yes)
        else throw .expectingPrimary
      else pure value

end

/-- The value of an expression, and the variables after it.  Nothing at all counts as zero. -/
def eval (values : Table Octets Octets) (source : Octets) :
    Except ArithmeticError (Int × Table Octets Octets) :=
  let cs := source.toList.dropWhile isBlankChar
  if cs.isEmpty then .ok (0, values)
  else
    match (expression (16 * cs.length + 16)).run ⟨cs, values⟩ with
    | .error e => .error e
    | .ok (value, s) =>
        if (s.rest.dropWhile isBlankChar).isEmpty then .ok (value, s.values)
        else .error .expectingEnd

end Arithmetic

end Automation.Shell
