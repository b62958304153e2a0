/-
Why an operation on files or processes is refused.
-/

namespace Automation

/-- The reasons an operating system gives, and two that are given before it is asked: a name with
a NUL in it, and octets that were to be text and are not. -/
inductive OsError where
  | notPermitted
  | noEntry
  | badExecutable
  | accessDenied
  | exists
  | notDirectory
  | isDirectory
  | invalidArgument
  | brokenPipe
  | nameTooLong
  | notEmpty
  | nulInName
  | nulInArgument
  | notText
deriving Repr, DecidableEq, Inhabited

namespace OsError

/-- A reason in words. -/
def text : OsError → String
  | .notPermitted => "Operation not permitted"
  | .noEntry => "No such file or directory"
  | .badExecutable => "Exec format error"
  | .accessDenied => "Permission denied"
  | .exists => "File exists"
  | .notDirectory => "Not a directory"
  | .isDirectory => "Is a directory"
  | .invalidArgument => "Invalid argument"
  | .brokenPipe => "Broken pipe"
  | .nameTooLong => "File name too long"
  | .notEmpty => "Directory not empty"
  | .nulInName => "file name contained an unexpected NUL byte"
  | .nulInArgument => "nul byte found in provided data"
  | .notText => "stream did not contain valid UTF-8"

/-- The number that the system has for a reason. -/
def number? : OsError → Option Nat
  | .notPermitted => some 1
  | .noEntry => some 2
  | .badExecutable => some 8
  | .accessDenied => some 13
  | .exists => some 17
  | .notDirectory => some 20
  | .isDirectory => some 21
  | .invalidArgument => some 22
  | .brokenPipe => some 32
  | .nameTooLong => some 36
  | .notEmpty => some 39
  | .nulInName => none
  | .nulInArgument => none
  | .notText => none

/-- The wording of a reason: the words, and the number if there is one. -/
def message (e : OsError) : String :=
  match e.number? with
  | some n => e.text ++ " (os error " ++ toString n ++ ")"
  | none => e.text

end OsError

end Automation
