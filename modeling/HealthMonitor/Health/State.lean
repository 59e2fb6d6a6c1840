import HealthMonitor.Dependency.CheckPlan
import HealthMonitor.Health.Tracker
import HealthMonitor.Probe.Verdict
import HealthMonitor.Time.Stamp

/-!
# States of endpoints

An `EndpointState` is what is known of an endpoint: its debounced health and the last check.
-/

namespace HealthMonitor

/-- The health of an endpoint and its last check. -/
structure EndpointState where
  tracker : Tracker
  verdict : Verdict
  latency : Span
  checkedAt : Option Stamp
  deriving DecidableEq, Repr, Inhabited

namespace EndpointState

/-- The state before the first check. -/
def fresh (plan : CheckPlan) : EndpointState where
  tracker := Tracker.fresh plan.failureThreshold plan.successThreshold
  verdict := Verdict.unknown
  latency := Span.zero
  checkedAt := none

/-- Takes a check in. -/
def record (s : EndpointState) (verdict : Verdict) (latency : Span) (stamp : Stamp) :
    Transition × EndpointState :=
  let (transition, tracker) := s.tracker.record verdict.isOk
  (transition, ⟨tracker, verdict, latency, some stamp⟩)

end EndpointState

end HealthMonitor
