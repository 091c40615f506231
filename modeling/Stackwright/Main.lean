import Stackwright.Command.Run

/-!
# The command

Takes a picture of the files that a run may touch, runs the command on it, and carries out what the run
asks for.
-/

namespace Stackwright
namespace Command

/-- The usage of the command. -/
def usageLines : List String :=
  [ "Usage: gantry [OPTIONS]",
    "",
    "Options:",
    "  -f, --file <FILE>              Descriptor file; repeat to merge several, later files win",
    "  -o, --output <PATH>            Write the generated source here instead of stdout",
    "      --package <PACKAGE>        Go package clause of the generated file [default: main]",
    "      --main                     Also emit a runnable main that brings the project up",
    "      --project-name <NAME>      Override the project name",
    "      --env-file <PATH>          Dotenv file used for variable interpolation",
    "      --profile <NAME>           Profile passed to the generated up/down calls; repeatable",
    "      --gofmt                    Pipe the output through gofmt found on PATH",
    "      --api-module <API_MODULE>  Go module root of the builder API",
    "  -h, --help                     Print help",
    "  -V, --version                  Print version" ]

/-- The place that names lead to, whatever stands on the way. -/
def placeOf (start : List String) (names : List String) : List String :=
  names.foldl (fun place name =>
    if name = "" || name = "." then place
    else if name = ".." then place.dropLast
    else place ++ [name]) start

/-- The number that the system gives to the use of a directory as a file. -/
def directoryCode : UInt32 := 21

/-- What stands at a path. -/
def readNode (path : String) : IO (Option FileNode) := do
  try
    let content ← IO.FS.readBinFile path
    return some (.file content.toList)
  catch
    | .inappropriateType _ code _ => return if code = directoryCode then some .directory else none
    | _ => return none

/-- Adds what stands at a path and on the way to it. -/
def addPath (tree : FileTree) (path : String) : IO FileTree := do
  let names := Path.components path
  let mut tree := tree
  for count in List.range names.length do
    let front := names.take (count + 1)
    if front.any (· != "") then
      if let some node ← readNode ("/".intercalate front) then
        tree := tree.put (placeOf (tree.start path) front) node
  return tree

/-- The paths that a run with arguments may touch. -/
def touchedPaths (a : Arguments) : List String :=
  a.files ++ a.envFile.toList ++ a.output.toList
    ++ (a.files.head?.map fun first => Path.sibling first dotenvName).toList

/-- The files around the working directory that a run may touch. -/
def readFiles (a : Arguments) : IO FileTree := do
  let directory ← IO.currentDir
  let start : FileTree := { workdir := (Path.components directory.toString).filter (· != "") }
  (touchedPaths a).foldlM addPath start

/-- The variables in a block of bytes in which each setting ends with a zero byte. -/
def settingsOf (block : List UInt8) : Dict String :=
  match Text.decodeUtf8 block with
  | .error _ => {}
  | .ok text =>
      Dict.ofList ((Text.splitAll '\x00' text).filterMap fun setting =>
        (Text.splitFirst '=' setting).map fun (name, value) =>
          (String.ofList name, String.ofList value))

/-- The environment of the process. -/
def readEnvironment : IO (Dict String) := do
  try
    let block ← IO.FS.readBinFile "/proc/self/environ"
    return settingsOf block.toList
  catch _ => return {}

/-- Reports a failure. -/
def report (f : Failure) : IO Unit := do
  IO.eprintln ("Error: " ++ f.message)
  unless f.causes.isEmpty do
    IO.eprintln ("\nCaused by:\n" ++ causesText f.causes)

/-- The text of the usage. -/
def usageText : List Char :=
  usageLines.flatMap fun line => line.toList ++ ['\n']

/-- Carries out what a run asks for. -/
def carryOut (outcome : Outcome) : IO UInt32 := do
  match outcome with
  | .misused _ => IO.eprintln "error: the arguments are not understood; see --help"
  | .failed f => report f
  | .written path source => IO.FS.writeFile path (String.ofList source)
  | _ => pure ()
  IO.print (String.ofList (outcome.text usageText))
  return UInt32.ofNat outcome.status

/-- The files that arguments need; arguments that ask for none need none. -/
def filesFor (arguments : List String) : IO FileTree :=
  match parse arguments with
  | .ok (.run a) => readFiles a
  | _ => return {}

end Command
end Stackwright

/-- Runs the command with the arguments of the process. -/
def main (arguments : List String) : IO UInt32 := do
  let files ← Stackwright.Command.filesFor arguments
  let settings ← Stackwright.Command.readEnvironment
  let system : Stackwright.Command.System :=
    { files, environment := settings.get?, formatter := none, usage := Stackwright.Command.usageText }
  Stackwright.Command.carryOut (Stackwright.Command.run system arguments).outcome
