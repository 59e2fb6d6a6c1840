import HealthMonitor.Dependency.Basic
import HealthMonitor.Health.State

/-!
# Statuses

An `EndpointStatus` is a snapshot of one endpoint with everything a reader wants to know of it. In
JSON its latency is a number of milliseconds, computed as a double: whole seconds and their fraction
are added up before they are scaled.
-/

namespace HealthMonitor

/-- One endpoint at one moment. -/
structure EndpointStatus where
  healthy : Option Bool
  verdict : Verdict
  latency : Span
  kind : Kind
  name : String
  host : String
  port : UInt16
  critical : Bool
  checkedAt : Option Stamp
  labels : Labels
  deriving DecidableEq, Repr

namespace EndpointStatus

/-- The status of an endpoint of a dependency in some state. -/
def ofState (d : Dependency) (e : Endpoint) (s : EndpointState) : EndpointStatus where
  healthy := s.tracker.healthy
  verdict := s.verdict
  latency := s.latency
  kind := d.kind
  name := d.name
  host := e.host
  port := e.port
  critical := d.isCritical
  checkedAt := s.checkedAt
  labels := e.labels

/-! ### Latency -/

/-- A span in milliseconds, as a double. -/
def millis (s : Span) : Float :=
  s.seconds * 1000.0

/-- One past the greatest number of whole seconds of a span that is read. -/
def secondsLimit : Nat := Nat.pow 2 64

/-- The span nearest to a number of milliseconds that is not negative. -/
def spanOfMillis? (ms : Float) : Option Span :=
  match Binary64.roundScaled? 1000000000 (ms / 1000.0) with
  | some n => if n / 1000000000 < secondsLimit then some ⟨n⟩ else none
  | none => none

/-! ### JSON -/

def toJson (s : EndpointStatus) : Json :=
  Json.obj [
    ("healthy", Json.option Json.bool s.healthy),
    ("status", Json.text s.verdict.category.text),
    ("detail", Json.text s.verdict.detail),
    ("latency_ms", Json.double (millis s.latency)),
    ("type", Json.text s.kind.text),
    ("name", Json.text s.name),
    ("host", Json.text s.host),
    ("port", Json.nat s.port.toNat),
    ("critical", Json.bool s.critical),
    ("last_checked_at", Json.option (fun t => Json.text t.text) s.checkedAt),
    ("labels", Json.ofDictionary s.labels)]

/-- The names of the fields. -/
def names : List String :=
  ["healthy", "status", "detail", "latency_ms", "type", "name", "host", "port", "critical",
    "last_checked_at", "labels"]

def ofJson? (j : Json) : Option EndpointStatus := do
  let f ← Json.fields? .refused names j
  let healthy ← f.nullable? "healthy" Json.bool?
  let category ← f.required? "status" fun j => (Json.word j).bind Category.ofText?
  let detail ← f.required? "detail" Json.text?
  let latency ← f.required? "latency_ms" fun j => (Json.double? j).bind spanOfMillis?
  let kind ← f.required? "type" fun j => (Json.word j).bind Kind.ofText?
  let name ← f.required? "name" Json.text?
  let host ← f.required? "host" Json.text?
  let port ← f.required? "port" Endpoint.portOfJson?
  let critical ← f.required? "critical" Json.bool?
  let checkedAt ← f.nullable? "last_checked_at" fun j => (Json.text? j).bind Stamp.parse?
  let labels ← f.withDefault? "labels" Dictionary.empty Json.dictionary?
  some ⟨healthy, ⟨category, detail⟩, latency, kind, name, host, port, critical, checkedAt, labels⟩

end EndpointStatus

end HealthMonitor
