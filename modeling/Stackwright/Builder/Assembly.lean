import Stackwright.Builder.EntryPoint
import Stackwright.Builder.Registry
import Stackwright.Builder.ServiceCode
import Stackwright.Text.Inspect

/-!
# Assembling a program

The program of a project has one function that creates its networks and volumes and registers its services,
one function for the container of each service, one for its orchestration settings if it has any, and the
entry point if it is asked for. Two services must not share an identifier.
-/

namespace Stackwright

open Program

/-- How a program is generated. -/
structure GenerateOptions where
  /-- The package clause of the program. -/
  package : String := "main"
  /-- Whether the program gets an entry point. -/
  emitMain : Bool := false
  /-- A name for the project instead of its own; an empty one does not count. -/
  projectName : Option String := none
  /-- The profiles that the entry point starts. -/
  profiles : List String := []
  /-- The module root of the builder API. -/
  apiModule : String := "github.com/gantry-dev/gantry-go"
deriving DecidableEq, Repr, Inhabited

/-- Two services whose names have the same identifier. -/
structure NameCollision where
  identifier : String
  first : String
  second : String
deriving DecidableEq, Repr

/-- The wording of a collision. -/
def NameCollision.message (c : NameCollision) : String :=
  "services \"" ++ c.first ++ "\" and \"" ++ c.second ++ "\" both resolve to identifier " ++ c.identifier

/-- The first service that shares its identifier with one before it; `seen` are those before, the last
first. -/
def collisionFrom (seen : List ServiceCode) : List ServiceCode → Option NameCollision
  | [] => none
  | c :: rest =>
      match seen.find? (·.ident = c.ident) with
      | some first => some ⟨c.ident, first.name, c.name⟩
      | none => collisionFrom (c :: seen) rest

/-- The first service that shares its identifier with one before it. -/
def collision? (services : List ServiceCode) : Option NameCollision :=
  collisionFrom [] services

namespace ServiceCode

/-- The arguments that register a service: its name and the functions that build its parts. -/
def registration (c : ServiceCode) : List Expr :=
  [.string c.name, .ident c.containerFunc]
    ++ if c.orchestration.isSome then [.ident c.serviceFunc] else []

/-- The functions of a service. -/
def funcs (c : ServiceCode) : List Func :=
  { doc := [c.containerFunc ++ " builds the container of service " ++ Text.inspectString c.name ++ "."]
    name := c.containerFunc
    results := [.pointer (.qualified .gantry "Container")]
    body := [.return (some c.container)] } ::
  (c.orchestration.map fun orchestration =>
    { doc :=
        [ c.serviceFunc ++ " builds the orchestration settings of service "
            ++ Text.inspectString c.name ++ "." ]
      name := c.serviceFunc
      results := [.pointer (.qualified .gantry "Service")]
      body := [.return (some orchestration)] : Func }).toList

end ServiceCode

/-- A section of statements after an empty line; without statements there is none. -/
def stmtSection (body : List Stmt) : List Stmt :=
  if body.isEmpty then [] else .blank :: body

namespace Project

/-- The code of the services of a project, in ascending order of their names. -/
def serviceCodes (p : Project) : List ServiceCode :=
  p.sortedServices.map Service.code

/-- Whether rounding a delay of some service overflows. -/
def overflows (p : Project) : Bool :=
  p.sortedServices.any Service.overflows

/-- A statement that adds something to the project. -/
def addition (method : String) (args : List Expr) : Stmt :=
  .expr (.methodCall (.ident projectVar) method args)

/-- The statements of the function that builds a project. -/
def constructorBody (p : Project) (name : String) (services : List ServiceCode) : List Stmt :=
  .define [projectVar] (.packageCall .gantry "NewProject" [.string name]) ::
    stmtSection (p.networkCreations.map fun network => addition "AddNetwork" [network])
    ++ stmtSection (p.volumeCreations.map fun volume => addition "AddVolume" [volume])
    ++ stmtSection (services.map fun service => addition "AddService" service.registration)
    ++ [.blank, .return (some (.ident projectVar))]

/-- The function that builds a project. -/
def constructorFunc (p : Project) (name : String) (services : List ServiceCode) : Func where
  doc := [projectFunc ++ " assembles the " ++ Text.inspectString name ++ " deployment."]
  name := projectFunc
  results := [.pointer (.qualified .gantry "Project")]
  body := p.constructorBody name services

/-- The name that the program gives a project. -/
def programName (p : Project) (options : GenerateOptions) : String :=
  (given options.projectName).getD p.name

/-- The program of a project. -/
def assemble (p : Project) (options : GenerateOptions) : Except NameCollision File :=
  let services := p.serviceCodes
  match collision? services with
  | some collision => .error collision
  | none =>
      .ok
        { header := ["Code generated by gantry. DO NOT EDIT."]
          package := options.package
          funcs :=
            p.constructorFunc (p.programName options) services :: services.flatMap ServiceCode.funcs
              ++ if options.emitMain then entryPoint options.profiles else [] }

end Project
end Stackwright
