import Stackwright.Builder.Assembly
import Stackwright.Load

/-!
# Command-line arguments

The arguments are read from left to right, and the first one that is wrong, or asks for help or the version,
decides. An option takes its value after an equals sign, directly after its short name, or from the next
argument, which must not look like an option.
-/

namespace Stackwright
namespace Command

/-- What the command is asked to do. -/
structure Arguments where
  files : List String := []
  output : Option String := none
  package : Option String := none
  emitMain : Bool := false
  projectName : Option String := none
  envFile : Option String := none
  profiles : List String := []
  gofmt : Bool := false
  apiModule : Option String := none
deriving DecidableEq, Repr, Inhabited

/-- An option with a value. -/
inductive ValueOption where
  | file
  | output
  | package
  | projectName
  | envFile
  | profile
  | apiModule
deriving DecidableEq, Repr

/-- An option without a value. -/
inductive Switch where
  | emitMain
  | gofmt
  | help
  | version
deriving DecidableEq, Repr

/-- An option. -/
inductive Flag where
  | value (option : ValueOption)
  | switch (option : Switch)
deriving DecidableEq, Repr

/-- Why arguments cannot be understood. -/
inductive UsageFault where
  | unknown (argument : String)
  /-- An argument that belongs to no option. -/
  | stray (argument : String)
  | missingValue (argument : String)
  /-- A value for an option that takes none. -/
  | unexpectedValue (argument : String)
  /-- An empty text where a path is expected. -/
  | emptyPath
  /-- An option that may be given once only. -/
  | repeated
deriving DecidableEq, Repr

/-- What arguments ask for. -/
inductive Invocation where
  | help
  | version
  | run (arguments : Arguments)
deriving DecidableEq, Repr

/-- The options by their long names. -/
def longFlag? (name : String) : Option Flag :=
  [ ("file", Flag.value .file), ("output", .value .output), ("package", .value .package),
    ("project-name", .value .projectName), ("env-file", .value .envFile), ("profile", .value .profile),
    ("api-module", .value .apiModule), ("main", .switch .emitMain), ("gofmt", .switch .gofmt),
    ("help", .switch .help), ("version", .switch .version) ].lookup name

/-- The options by their short names. -/
def shortFlag? (name : Char) : Option Flag :=
  [ ('f', Flag.value .file), ('o', .value .output), ('h', .switch .help),
    ('V', .switch .version) ].lookup name

/-- The value of an option that may be given once. -/
def once (current : Option String) (value : String) : Except UsageFault (Option String) :=
  if current.isSome then .error .repeated else .ok (some value)

/-- A path, which must not be empty. -/
def path (value : String) : Except UsageFault String :=
  if value.isEmpty then .error .emptyPath else .ok value

/-- Gives an option its value. -/
def Arguments.set (a : Arguments) (option : ValueOption) (value : String) :
    Except UsageFault Arguments :=
  match option with
  | .file => do
      let value ← path value
      return { a with files := a.files ++ [value] }
  | .output => do
      let value ← path value
      return { a with output := ← once a.output value }
  | .package => do return { a with package := ← once a.package value }
  | .projectName => do return { a with projectName := ← once a.projectName value }
  | .envFile => do
      let value ← path value
      return { a with envFile := ← once a.envFile value }
  | .profile => .ok { a with profiles := a.profiles ++ [value] }
  | .apiModule => do return { a with apiModule := ← once a.apiModule value }

/-- What an argument is. -/
inductive Shape where
  /-- The mark after which there are no options. -/
  | endOfOptions
  /-- An option with the value that is attached to it, if there is one. -/
  | flag (flag : Flag) (attached : Option String)
  | unknown
  /-- A text that is no option. -/
  | plain
deriving DecidableEq, Repr

/-- The value after the equals sign that may stand between a short name and its value. -/
def attachedShort : List Char → Option String
  | [] => none
  | '=' :: value => some (String.ofList value)
  | value => some (String.ofList value)

/-- The shape of an argument. -/
def Shape.of (argument : String) : Shape :=
  match argument.toList with
  | ['-', '-'] => .endOfOptions
  | '-' :: '-' :: text =>
      let (name, attached) := match Text.splitFirst '=' text with
        | some (name, value) => (name, some (String.ofList value))
        | none => (text, none)
      match longFlag? (String.ofList name) with
      | some found => .flag found attached
      | none => .unknown
  | '-' :: name :: value =>
      match shortFlag? name with
      | some (.value option) => .flag (.value option) (attachedShort value)
      | some found => .flag found none
      | none => .unknown
  | _ => .plain

/-- Reads the arguments after those that are collected. -/
def parseFrom (a : Arguments) : List String → Except UsageFault Invocation
  | [] => .ok (.run a)
  | argument :: rest =>
      match Shape.of argument with
      | .plain => .error (.stray argument)
      | .unknown => .error (.unknown argument)
      | .endOfOptions =>
          match rest with
          | [] => .ok (.run a)
          | next :: _ => .error (.stray next)
      | .flag (.value option) (some value) => do
          let a ← a.set option value
          parseFrom a rest
      | .flag (.value option) none =>
          match rest with
          | [] => .error (.missingValue argument)
          | value :: rest =>
              if Shape.of value = .plain then do
                let a ← a.set option value
                parseFrom a rest
              else .error (.missingValue argument)
      | .flag (.switch _) (some _) => .error (.unexpectedValue argument)
      | .flag (.switch .help) none => .ok .help
      | .flag (.switch .version) none => .ok .version
      | .flag (.switch .emitMain) none =>
          if a.emitMain then .error .repeated else parseFrom { a with emitMain := true } rest
      | .flag (.switch .gofmt) none =>
          if a.gofmt then .error .repeated else parseFrom { a with gofmt := true } rest

/-- Reads the arguments of the command. -/
def parse (arguments : List String) : Except UsageFault Invocation :=
  parseFrom {} arguments

/-- The environment variable that names the module root of the builder API. -/
def apiModuleVariable : String := "GANTRY_API_MODULE"

namespace Arguments

/-- What is loaded. -/
def loadOptions (a : Arguments) : LoadOptions where
  files := a.files
  envFile := a.envFile
  projectName := a.projectName

/-- How the program is generated. The name of the project is settled when it is loaded. -/
def generateOptions (a : Arguments) (environment : Template.Lookup) : GenerateOptions :=
  let defaults : GenerateOptions := {}
  { package := a.package.getD defaults.package
    emitMain := a.emitMain
    projectName := none
    profiles := a.profiles
    apiModule := (a.apiModule <|> environment apiModuleVariable).getD defaults.apiModule }

end Arguments
end Command
end Stackwright
