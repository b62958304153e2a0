import Automation.Shell.Arithmetic
import Automation.Shell.Machine

/-
The conditions of `test`.
-/

namespace Automation.Shell

/-- Why a condition cannot be decided. -/
inductive ConditionError where
  | illegalNumber (s : Octets)
  | unexpectedOperator (s : Octets)
  | argumentExpected
  | missingBracket
deriving Repr, DecidableEq

/-- The wording of it. -/
def ConditionError.message : ConditionError → Octets
  | .illegalNumber s => "Illegal number: " ++ s
  | .unexpectedOperator s => s ++ ": unexpected operator"
  | .argumentExpected => "argument expected"
  | .missingBracket => "missing ]"

namespace Condition

/-- A question about a file, by its letter. -/
def ofFile? (letter : Octets) (t : FileTree) (p : Path) : Option Bool :=
  match letter with
  | "-e" => some (t.exists? p)
  | "-f" => some (t.isFile p)
  | "-d" => some (t.isDirectory p)
  | "-r" => some (t.exists? p)
  | "-w" => some (t.exists? p)
  | "-s" => some (match t.stat p with
      | .ok (.file content _) => 0 < content.size
      | .ok .directory => true
      | .error _ => false)
  | "-x" => some (match t.stat p with
      | .ok (.file _ executable) => executable
      | .ok .directory => true
      | .error _ => false)
  | "-L" => some false
  | "-h" => some false
  | _ => none

/-- The number that an operand stands for. -/
def operand (s : Octets) : Except ConditionError Int :=
  match s.toList.filter fun c => !Arithmetic.isBlankChar c with
  | [] => .error (.illegalNumber s)
  | '-' :: rest =>
      match Arithmetic.digits? 10 rest with
      | some n => .ok (-n)
      | none => .error (.illegalNumber s)
  | cs =>
      match Arithmetic.digits? 10 cs with
      | some n => .ok n
      | none => .error (.illegalNumber s)

/-- A comparison of two operands, if there is one of that name. -/
def compare? (sign a b : Octets) : Option (Except ConditionError Bool) :=
  let numbers (f : Int → Int → Bool) : Option (Except ConditionError Bool) := some do
    pure (f (← operand a) (← operand b))
  match sign with
  | "=" => some (.ok (a == b))
  | "!=" => some (.ok (a != b))
  | "<" => some (.ok (a < b))
  | ">" => some (.ok (b < a))
  | "-eq" => numbers fun a b => a == b
  | "-ne" => numbers fun a b => a != b
  | "-lt" => numbers fun a b => a < b
  | "-le" => numbers fun a b => a ≤ b
  | "-gt" => numbers fun a b => b < a
  | "-ge" => numbers fun a b => b ≤ a
  | _ => none

/-- A question about one operand, if there is one of that name. -/
def unary? (letter a : Octets) (t : FileTree) (p : Path) : Option Bool :=
  match letter with
  | "-n" => some (!a.isEmpty)
  | "-z" => some a.isEmpty
  | _ => ofFile? letter t p

/-- Decide a condition without `-a` and `-o`. -/
def decideOne (t : FileTree) (resolve : Octets → Path) :
    List Octets → Except ConditionError Bool
  | [] => .ok false
  | ["!"] => .ok true
  | [a] => .ok (!a.isEmpty)
  | ["!", a] => .ok a.isEmpty
  | [letter, a] =>
      match unary? letter a t (resolve a) with
      | some b => .ok b
      | none => .error (.unexpectedOperator letter)
  | "!" :: rest => (decideOne t resolve rest).map not
  | ["(", a, ")"] => .ok (!a.isEmpty)
  | [a, sign, b] =>
      match compare? sign a b with
      | some answer => answer
      | none => .error (.unexpectedOperator a)
  | _ :: sign :: _ => .error (.unexpectedOperator sign)

/-- The parts of a condition between a connective. -/
def parts (connective : Octets) : List Octets → List (List Octets)
  | [] => [[]]
  | word :: rest =>
      if word = connective then [] :: parts connective rest
      else
        match parts connective rest with
        | [] => [[word]]
        | first :: more => (word :: first) :: more

/-- Whether all of some parts hold, or one of them. -/
def decideAll (wanted : Bool) (decideOne : List Octets → Except ConditionError Bool) :
    List (List Octets) → Except ConditionError Bool
  | [] => .ok wanted
  | first :: rest => do
      if (← decideOne first) == wanted then decideAll wanted decideOne rest else pure (!wanted)

/-- Decide a condition. -/
def decide (t : FileTree) (resolve : Octets → Path) (words : List Octets) :
    Except ConditionError Bool :=
  if words.length ≤ 3 then decideOne t resolve words
  else
    decideAll false (fun part => decideAll true (decideOne t resolve) (parts "-a" part))
      (parts "-o" words)

end Condition

/-- The command that decides a condition; called as a bracket it ends with one. -/
def Sh.test (name : Octets) (arguments : List Octets) : Sh Nat := do
  let closed := name != "[" || arguments.getLast? == some "]"
  let words := if name == "[" then arguments.dropLast else arguments
  let directory := (← get).directory
  let resolve (s : Octets) : Path :=
    let p : Path := ⟨Octets.decode s⟩
    if p.text.isEmpty then p else directory.join p
  let answer ← if closed then Sh.observe fun t => Condition.decide t resolve words
    else pure (.error .missingBracket)
  match answer with
  | .ok true => pure 0
  | .ok false => pure 1
  | .error e => do
      Sh.report (name ++ ": " ++ e.message)
      pure 2

end Automation.Shell
