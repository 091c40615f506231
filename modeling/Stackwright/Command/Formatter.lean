import Stackwright.Files.Tree
import Stackwright.Text.Blank

/-!
# External formatters

A formatter is a program that reads a source text and writes it in its own layout. It can fail to start, to
take its input, to succeed, or to write text.
-/

namespace Stackwright

/-- How one run of a formatter ends. -/
inductive FormatterRun where
  /-- The program could not be started. -/
  | notStarted (fault : IoFault)
  /-- The program stopped before it had read its input. -/
  | notFed (fault : IoFault)
  /-- The program ended with a status other than zero, and said why. -/
  | failed (status : Nat) (report : String)
  | finished (output : List UInt8)
deriving DecidableEq, Repr

/-- A program that formats source texts. -/
structure Formatter where
  /-- The path that the program was found under. -/
  program : String
  run : List Char → FormatterRun

/-- Why a source text could not be formatted by a program. -/
inductive FormatterFault where
  /-- There is no such program. -/
  | notFound (name : String)
  | notStarted (program : String) (fault : IoFault)
  | notFed (program : String) (fault : IoFault)
  | failed (program : String) (status : Nat) (report : String)
  | notText (program : String) (fault : Text.Utf8Fault)
deriving DecidableEq, Repr

/-- The wording of a fault. -/
def FormatterFault.message : FormatterFault → String
  | .notFound name => name ++ " not found on PATH: cannot find binary path"
  | .notStarted program fault => "failed to start " ++ program ++ ": " ++ fault.message
  | .notFed program fault => "failed to feed " ++ program ++ ": " ++ fault.message
  | .failed program status report =>
      program ++ " exited with exit status: " ++ String.ofList (Text.decimal status) ++ ": "
        ++ String.ofList (Text.trim report.toList)
  | .notText program fault => program ++ " produced invalid UTF-8: " ++ fault.message

/-- Formats a source text. -/
def Formatter.format (f : Formatter) (source : List Char) : Except FormatterFault (List Char) :=
  match f.run source with
  | .notStarted fault => .error (.notStarted f.program fault)
  | .notFed fault => .error (.notFed f.program fault)
  | .failed status report => .error (.failed f.program status report)
  | .finished output =>
      match Text.decodeUtf8 output with
      | .ok text => .ok text
      | .error fault => .error (.notText f.program fault)

end Stackwright
