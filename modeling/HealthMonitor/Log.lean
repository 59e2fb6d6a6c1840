import HealthMonitor.Dependency.Basic
import HealthMonitor.Json.Basic

/-!
# Log lines

What a monitor reports while it runs. A `LogLine` is a cause with what it is about; its level,
message and fields are read off it.
-/

namespace HealthMonitor

inductive LogLevel where
  | info
  | warn
  | error
  deriving DecidableEq, Repr

def LogLevel.text : LogLevel → String
  | .info => "INFO"
  | .warn => "WARN"
  | .error => "ERROR"

/-- One endpoint of a dependency, as log lines name it. -/
structure LogSubject where
  dependency : String
  kind : Kind
  host : String
  port : UInt16
  deriving DecidableEq, Repr

/-- An event worth a line in the log. -/
inductive LogLine where
  | built (name : String) (dependencies : Nat)
  | started (endpoints : Nat)
  | stopped
  | checkFailed (subject : LogSubject) (error : String)
  | probePanicked (subject : LogSubject) (panic : String)
  | becameUnhealthy (subject : LogSubject) (failures : Nat)
  | recovered (subject : LogSubject)
  | endpointAdded (key : String)
  | endpointRemoved (key : String)
  | endpointUpdated (old new : String)
  /-- A check loop has broken down instead of ending. -/
  | loopBroken
  deriving DecidableEq, Repr

namespace LogLine

def level : LogLine → LogLevel
  | checkFailed .. => .warn
  | probePanicked .. => .error
  | becameUnhealthy .. => .error
  | loopBroken => .error
  | _ => .info

def message : LogLine → String
  | built .. => "depwatch built"
  | started _ => "dependency checks started"
  | stopped => "dependency checks stopped"
  | checkFailed .. => "check failed"
  | probePanicked .. => "probe panicked"
  | becameUnhealthy .. => "dependency unhealthy"
  | recovered _ => "dependency recovered"
  | endpointAdded _ => "dynamic endpoint added"
  | endpointRemoved _ => "dynamic endpoint removed"
  | endpointUpdated .. => "dynamic endpoint updated"
  | loopBroken => "check loop terminated abnormally"

/-- The fields that name an endpoint. -/
def placeFields (s : LogSubject) : List (String × String) :=
  [("dependency", s.dependency), ("host", s.host), ("port", toString s.port.toNat)]

/-- The fields that name an endpoint and the kind of its dependency. -/
def subjectFields (s : LogSubject) : List (String × String) :=
  ("dep_type", s.kind.text) :: placeFields s

def fields : LogLine → List (String × String)
  | built name dependencies => [("name", name), ("dependencies", toString dependencies)]
  | started endpoints => [("endpoints", toString endpoints)]
  | stopped => []
  | checkFailed s error => ("error", error) :: subjectFields s
  | probePanicked s panic => ("panic", panic) :: placeFields s
  | becameUnhealthy s failures => ("consecutive_failures", toString failures) :: subjectFields s
  | recovered s => subjectFields s
  | endpointAdded key => [("endpoint", key)]
  | endpointRemoved key => [("endpoint", key)]
  | endpointUpdated old new => [("from", old), ("to", new)]
  | loopBroken => []

/-- A line of a log for readers. -/
def text (l : LogLine) : String :=
  l.level.text ++ " " ++ l.message ++ String.join (l.fields.map fun f => " " ++ f.1 ++ "=" ++ f.2)

/-- A line of a log for programs. -/
def toJson (l : LogLine) : Json :=
  Json.obj ([("level", Json.text l.level.text), ("message", Json.text l.message)]
    ++ l.fields.map fun f => (f.1, Json.text f.2))

/-- The value of a field; empty when there is none of its name. -/
def field (l : LogLine) (name : String) : String :=
  (l.fields.lookup name).getD ""

end LogLine

end HealthMonitor
