import Stackwright.Command.Arguments
import Stackwright.Command.Summary
import Stackwright.Generate

/-!
# Running the command

The command loads descriptors, generates their program and prints it or writes it to a file. It runs on a
file tree, an environment, the formatter that can be found and a standard output that may fail. It changes
nothing but the file that it is asked to write; a standard output that fails does so after this file is
written.
-/

namespace Stackwright
namespace Command

/-- The standard output of a run. -/
structure Stdout where
  /-- How many bytes are taken before the output fails, and how it fails then; without it all are taken. -/
  stop : Option (Nat × IoFault) := none
deriving DecidableEq, Repr

/-- What the output takes of some bytes, and how it fails if it does not take them all. -/
def Stdout.print (o : Stdout) (bytes : List UInt8) : List UInt8 × Option IoFault :=
  match o.stop with
  | none => (bytes, none)
  | some (room, fault) =>
      if bytes.length ≤ room then (bytes, none) else (bytes.take room, some fault)

/-- What the command runs on. -/
structure System where
  files : FileTree
  environment : Template.Lookup
  /-- The formatter that can be found, if there is one. -/
  formatter : Option Formatter
  stdout : Stdout := {}
  /-- The usage, as it is laid out for the terminal. -/
  usage : List Char := []

/-- The formatter that the command looks for. -/
def formatterName : String := "gofmt"

/-- Why a run fails. -/
inductive Failure where
  | fileNotFound (path : String)
  | load (error : Error)
  | noFormatter
  | generate (error : Error)
  | write (path : String) (fault : IoFault)
  /-- The standard output did not take everything. -/
  | print (fault : IoFault)
deriving DecidableEq

/-- What a failure says first. -/
def Failure.message : Failure → String
  | .fileNotFound path => "file not found: " ++ path
  | .load _ => "failed to load descriptors"
  | .noFormatter => (Error.formatter (.notFound formatterName)).message
  | .generate _ => "failed to generate Go source"
  | .write path _ => "failed to write " ++ path
  | .print fault => fault.message

/-- An error and what caused it. -/
def errorChain : Error → List String
  | .io path fault => [(Error.io path fault).message, fault.message]
  | error => [error.message]

/-- What caused a failure, the nearest cause first. -/
def Failure.causes : Failure → List String
  | .load error | .generate error => errorChain error
  | .write _ fault => [fault.message]
  | .fileNotFound _ | .noFormatter | .print _ => []

/-- Puts the lines of a text after the first one below each other. -/
def indentLines (indent : String) (text : String) : String :=
  String.ofList (text.toList.flatMap fun c => if c = '\n' then '\n' :: indent.toList else [c])

/-- The text of causes. A single one is indented; several are numbered. -/
def causesText : List String → String
  | [] => ""
  | [single] => "    " ++ indentLines "    " single
  | several =>
      "\n".intercalate (several.zipIdx.map fun (cause, i) =>
        "    " ++ String.ofList (Text.decimal i) ++ ": " ++ indentLines "       " cause)

/-- How a run ends. -/
inductive Outcome where
  /-- The arguments could not be understood. -/
  | misused (fault : UsageFault)
  | failed (failure : Failure)
  /-- The usage was printed. -/
  | usage
  | version
  /-- The program was printed. -/
  | printed (source : List Char)
  /-- The program was written to a file. -/
  | written (path : String) (source : List Char)
deriving DecidableEq

/-- The exit status of a run. -/
def Outcome.status : Outcome → Nat
  | .misused _ => 2
  | .failed _ => 1
  | _ => 0

/-- The name and version of the command. -/
def versionText : String := "gantry 0.1.0"

/-- The text that a run is to print. -/
def Outcome.text (usage : List Char) : Outcome → List Char
  | .misused _ | .failed _ => []
  | .usage => usage
  | .version => versionText.toList ++ ['\n']
  | .printed source => source
  | .written path source => summary path source ++ ['\n']

/-- What a run leaves: how it ended, the bytes that its standard output took, and the files. -/
structure Effect where
  outcome : Outcome
  stdout : List UInt8
  files : FileTree
deriving DecidableEq

/-- The exit status of a run. -/
def Effect.status (e : Effect) : Nat :=
  e.outcome.status

namespace System

/-- What the standard output takes of the text that a run is to print. -/
def print (s : System) (outcome : Outcome) : List UInt8 × Option IoFault :=
  s.stdout.print (Text.encodeUtf8 (outcome.text s.usage))

/-- Ends a run that prints its text and fails if the standard output does. -/
def finish (s : System) (outcome : Outcome) (files : FileTree) : Effect :=
  match s.print outcome with
  | (stdout, none) => { outcome, stdout, files }
  | (stdout, some fault) => { outcome := .failed (.print fault), stdout, files }

/-- Ends a run that prints its text and does not look at whether the standard output took it. -/
def tell (s : System) (outcome : Outcome) : Effect :=
  { outcome, stdout := (s.print outcome).1, files := s.files }

/-- Ends a run that prints nothing and changes nothing. -/
def stop (s : System) (outcome : Outcome) : Effect :=
  { outcome, stdout := [], files := s.files }

end System

/-- Loads descriptors and generates their program. -/
def generateSource (s : System) (a : Arguments) : Except Failure (List Char) :=
  match a.files.find? (!s.files.contains ·) with
  | some path => .error (.fileNotFound path)
  | none => do
      let project ← (Project.load s.files s.environment a.loadOptions).mapError .load
      let options := a.generateOptions s.environment
      if a.gofmt then
        match s.formatter with
        | none => .error .noFormatter
        | some formatter => (project.generateWith formatter options).mapError .generate
      else (project.generate options).mapError .generate

/-- Prints a source text, or writes it to a file and prints a summary. -/
def deliver (s : System) (output : Option String) (source : List Char) : Effect :=
  match output with
  | none => s.finish (.printed source) s.files
  | some path =>
      match s.files.writeText path source with
      | .ok files => s.finish (.written path source) files
      | .error fault => s.stop (.failed (.write path fault))

/-- Runs the command with arguments that are understood. -/
def execute (s : System) (a : Arguments) : Effect :=
  if a.files.isEmpty then s.finish .usage s.files
  else
    match generateSource s a with
    | .error failure => s.stop (.failed failure)
    | .ok source => deliver s a.output source

/-- Runs the command. Help and the version are told whether or not anybody listens. -/
def run (s : System) (arguments : List String) : Effect :=
  match parse arguments with
  | .error fault => s.stop (.misused fault)
  | .ok .help => s.tell .usage
  | .ok .version => s.tell .version
  | .ok (.run a) => execute s a

end Command
end Stackwright
