import Stackwright.Builder.Attachment
import Stackwright.Builder.Host
import Stackwright.Builder.Orchestration
import Stackwright.Program.Ident

/-!
# The code of a service

A service becomes a container expression, a chain of the groups of settings that are not empty, and an
orchestration expression if it has orchestration settings.
-/

namespace Stackwright

open Program

/-- The code of one service. -/
structure ServiceCode where
  /-- The name of the service. -/
  name : String
  /-- The exported identifier for the name. -/
  ident : String
  /-- The expression that builds the container. -/
  container : Expr
  /-- The expression that builds the orchestration settings, if there are any. -/
  orchestration : Option Expr
deriving Inhabited

namespace ServiceCode

/-- The name of the function that builds the container. -/
def containerFunc (c : ServiceCode) : String :=
  c.ident ++ "Container"

/-- The name of the function that builds the orchestration settings. -/
def serviceFunc (c : ServiceCode) : String :=
  c.ident ++ "Service"

end ServiceCode

namespace Service

/-- The groups of container settings with the methods that take them. -/
def groups (s : Service) : List (String × List Expr) :=
  [ ("WithConfig", s.containerCalls),
    ("WithHostConfig", s.hostCalls),
    ("WithNetworkingConfig", s.endpointCalls),
    ("WithPlatform", s.platformCalls) ]

/-- The expression that builds the container of a service. -/
def containerExpr (s : Service) : Expr :=
  (s.groups.filter (!·.2.isEmpty)).foldl
    (fun chain group => .methodCall chain group.1 [.group group.2])
    (.packageCall .gantry "NewContainer" [])

/-- The expression that builds the orchestration settings of a service, if it has any. -/
def orchestrationExpr (s : Service) : Option Expr :=
  if s.orchestrationCalls.isEmpty then none
  else some (.packageCall .gantry "NewService" [.group s.orchestrationCalls])

/-- The code of a service. -/
def code (s : Service) : ServiceCode where
  name := s.name
  ident := exportedString s.name
  container := s.containerExpr
  orchestration := s.orchestrationExpr

end Service
end Stackwright
