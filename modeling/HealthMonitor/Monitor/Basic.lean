import HealthMonitor.Probe.Handle
import HealthMonitor.Probe.Registry
import HealthMonitor.Scheduler.Basic

/-!
# Monitors

A `Monitor` is a scheduler together with the probes it was built with: it can make more of them
from its registry, and an endpoint that moves keeps the probe of its dependency. Every probe put
to use gets a number of its own.
-/

namespace HealthMonitor

/-- Why a monitor cannot be built, or an endpoint not be added to one. -/
inductive BuildError where
  | config (cause : ConfigError)
  | metrics (cause : MetricsError)
  | scheduler (cause : SchedulerError)
  deriving DecidableEq, Repr

/-- A running set of dependencies. -/
structure Monitor (P : Type) where
  name : String
  registry : ProbeRegistry P
  /-- The probe of each dependency, by name. -/
  probes : Dictionary String (Handle P)
  /-- How many probes have been put to use. -/
  used : Nat
  scheduler : Scheduler (Handle P)

namespace Monitor

variable {P : Type}

/-! ### Calls -/

/-- Starts all checks, up to an outer deadline if there is one. -/
def start (m : Monitor P) (outer : Option Instant) : Except SchedulerError (Monitor P) :=
  (m.scheduler.start outer).map fun s => { m with scheduler := s }

/-- Stops all checks. -/
def stop (m : Monitor P) : Monitor P :=
  { m with scheduler := m.scheduler.stop }

/-- Adds an endpoint with a probe of one's own, which says the kind. The first probe of a dependency
stays the one that moved endpoints get. -/
def addEndpointWith [HasKind P] (m : Monitor P) (name : String) (critical : Bool) (e : Endpoint)
    (probe : P) : Except SchedulerError (Monitor P) := do
  let handle : Handle P := ⟨m.used, probe⟩
  let s ← m.scheduler.addEndpoint name (kindOf handle) critical e handle
  return { m with
    scheduler := s
    probes := m.probes.insertNew name handle
    used := m.used + 1 }

/-- Adds an endpoint with a probe from the registry. -/
def addEndpoint [HasKind P] (m : Monitor P) (name : String) (kind : Kind) (critical : Bool)
    (e : Endpoint) (settings : ProbeSettings) : Except BuildError (Monitor P) := do
  settings.checkAuth.mapError BuildError.config
  let probe ← (m.registry.create kind settings).mapError BuildError.config
  (m.addEndpointWith name critical e probe).mapError BuildError.scheduler

/-- Takes an endpoint away. -/
def removeEndpoint (m : Monitor P) (name host : String) (port : UInt16) :
    Except SchedulerError (Monitor P) :=
  (m.scheduler.removeEndpoint name host port).map fun s => { m with scheduler := s }

/-- Moves an endpoint of a dependency, which keeps its probe. -/
def updateEndpoint (m : Monitor P) (name oldHost : String) (oldPort : UInt16) (e : Endpoint) :
    Except SchedulerError (Monitor P) :=
  match m.probes.get? name with
  | none => .error (.endpointNotFound (Endpoint.keyOf name oldHost oldPort))
  | some handle =>
    (m.scheduler.updateEndpoint name oldHost oldPort e handle).map fun s =>
      { m with scheduler := s }

/-! ### Snapshots -/

/-- The health of every endpoint that has been checked. -/
def health (m : Monitor P) : List (String × Bool) :=
  m.scheduler.health

/-- The status of every endpoint. -/
def details (m : Monitor P) : List (String × EndpointStatus) :=
  m.scheduler.details

/-- Whether no critical endpoint is known to be unhealthy. -/
def criticalHealthy (m : Monitor P) : Bool :=
  m.details.all fun e => !(e.2.critical && e.2.healthy == some false)

/-- A monitor in one line. -/
def describe (m : Monitor P) : String :=
  "DepWatch \x7b name: " ++ Text.quoted m.name ++ ", scheduler: " ++ m.scheduler.describe
    ++ ", .. \x7d"

end Monitor

end HealthMonitor
