import HealthMonitor.Dependency.CheckPlan
import HealthMonitor.Dependency.Endpoint

/-!
# Dependencies

A `Dependency` is a named group of endpoints that share a kind, a criticality and a check plan.
`Dependency.validate` is the gate in front of every registration: it looks at the name, the
criticality, each endpoint in turn, and last at the plan.
-/

namespace HealthMonitor

/-- A monitored dependency. -/
structure Dependency where
  name : String
  kind : Kind
  critical : Option Bool
  endpoints : List Endpoint
  plan : CheckPlan
  deriving DecidableEq, Repr, Inhabited

namespace Dependency

/-- Criticality; a dependency that says nothing is not critical. -/
def isCritical (d : Dependency) : Bool :=
  d.critical.getD false

/-- The key of one of its endpoints. -/
def key (d : Dependency) (e : Endpoint) : String :=
  e.key d.name

/-- Refuses a bad name of an instance or a dependency. -/
def checkName (name : String) : Except ConfigError Unit :=
  match nameFault? name with
  | some fault => .error (.invalidName name fault)
  | none => .ok ()

/-- Refuses a bad name of a custom label. -/
def checkLabelName (name : String) : Except ConfigError Unit :=
  match labelFault? name with
  | some .malformed => .error (.invalidLabel name)
  | some .reserved => .error (.reservedLabel name)
  | none => .ok ()

/-- Refuses labels by their first bad name. -/
def checkLabels (labels : Labels) : Except ConfigError Unit :=
  labels.keys.forM checkLabelName

/-- Refuses the endpoint at a place of a dependency. -/
def checkEndpoint (dependency : String) (index : Nat) (e : Endpoint) : Except ConfigError Unit :=
  if e.host.isEmpty then .error (.missingHost dependency index)
  else if e.port = 0 then .error (.invalidPort "0")
  else (checkLabels e.labels).mapError (ConfigError.within dependency)

/-- Refuses the first bad endpoint of a list that starts at a place. -/
def checkEndpoints (dependency : String) : Nat → List Endpoint → Except ConfigError Unit
  | _, [] => .ok ()
  | index, e :: rest =>
    match checkEndpoint dependency index e with
    | .ok () => checkEndpoints dependency (index + 1) rest
    | .error cause => .error cause

/-- Refuses a dependency by its first fault. -/
def validate (d : Dependency) : Except ConfigError Unit := do
  checkName d.name
  if d.critical.isNone then throw (.missingCritical d.name)
  if d.endpoints.isEmpty then throw (.noEndpoints d.name)
  checkEndpoints d.name 0 d.endpoints
  d.plan.validate.mapError (ConfigError.within d.name)

end Dependency

end HealthMonitor
