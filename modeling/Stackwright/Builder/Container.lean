import Stackwright.Builder.Calls
import Stackwright.Model.Service

/-!
# Container settings

What runs in the container of a service: image, process, environment, identity and health check.
-/

namespace Stackwright

open Program

/-- The protocol of a port that names none. -/
def defaultProtocol : String := "tcp"

/-- The calls of a health check. -/
def HealthCheck.calls (check : HealthCheck) : List Expr :=
  List.flatten
    [ Calls.texts .healthcheck "Test" check.test,
      Calls.duration .healthcheck "Interval" check.interval,
      Calls.duration .healthcheck "Timeout" check.timeout,
      Calls.duration .healthcheck "StartPeriod" check.startPeriod,
      Calls.uint .healthcheck "Retries" check.retries ]

/-- The call for a port that the image exposes, written `port[/protocol]`. -/
def exposedPort (token : String) : Expr :=
  let (port, protocol) := (Text.splitString '/' token).getD (token, defaultProtocol)
  .packageCall .container "ExposedPort" [.string port, .string protocol]

namespace Service

/-- The container settings of a service, a list of calls for each field. -/
def containerFields (s : Service) : List (List Expr) :=
  [ Calls.text .container "Image" s.image,
    s.expose.map exposedPort,
    Calls.uint .container "StopTimeout" (s.stopGracePeriod.map Duration.seconds),
    Calls.optionalPairs .container "Env" s.environment,
    Calls.texts .container "Cmd" s.command,
    Calls.texts .container "Entrypoint" s.entrypoint,
    Calls.text .container "User" s.user,
    Calls.text .container "WorkingDir" s.workingDir,
    Calls.text .container "Hostname" s.hostname,
    Calls.text .container "Domainname" s.domainname,
    Calls.text .container "StopSignal" s.stopSignal,
    Calls.pairs .container "Label" s.labels,
    ((s.healthcheck.filter (!·.disable)).map fun check =>
      Expr.packageCall .container "Healthcheck" check.calls).toList,
    Calls.flag .container "Tty" s.tty,
    Calls.flag .container "OpenStdin" s.stdinOpen ]

/-- The container settings of a service. -/
def containerCalls (s : Service) : List Expr :=
  s.containerFields.flatten

end Service
end Stackwright
