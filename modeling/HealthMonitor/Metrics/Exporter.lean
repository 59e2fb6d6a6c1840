import HealthMonitor.Dependency.Basic
import HealthMonitor.Metrics.Family
import HealthMonitor.Metrics.Histogram
import HealthMonitor.Probe.Verdict

/-!
# Exporters

An `Exporter` keeps four families of series about the endpoints of one instance: health, latency,
the category of the last check and its detail. Its label values lead to a series: those of the
instance, the dependency and the endpoint, and one for each custom label of the exporter. A
category has eight series per endpoint, of which one is set; a detail has one, and a table
remembers it. The table tells endpoints apart by the label values themselves, the families by
their keys.
-/

namespace HealthMonitor

/-- The families that are registered together, by name. No two of them have one name. -/
structure FamilyRegistry where
  families : List String
  deriving DecidableEq, Repr

namespace FamilyRegistry

def empty : FamilyRegistry := ⟨[]⟩

/-- Adds a family, unless its name is taken. -/
def register? (r : FamilyRegistry) (family : String) : Option FamilyRegistry :=
  if r.families.contains family then none else some ⟨r.families ++ [family]⟩

/-- Adds families in order up to the first whose name is taken; whether all were added. -/
def registerAll (r : FamilyRegistry) : List String → FamilyRegistry × Bool
  | [] => (r, true)
  | family :: rest =>
    match r.register? family with
    | some r => r.registerAll rest
    | none => (r, false)

end FamilyRegistry

/-- Why an exporter cannot be made. -/
inductive MetricsError where
  | invalidLabel (cause : ConfigError)
  /-- A family would have two labels of one name. -/
  | repeatedLabel (name : String)
  | takenFamily
  deriving DecidableEq, Repr

/-- The four families of series of an instance. -/
structure Exporter where
  /-- The name of the instance. -/
  name : String
  /-- The custom labels, in rising order. -/
  extraLabels : List String
  health : Family Bool
  latency : Family Histogram
  status : Family Bool
  detail : Family Bool
  /-- The detail that each endpoint has now. -/
  details : Dictionary LabelValues String

namespace Exporter

def healthFamily : String := "app_dependency_health"

def latencyFamily : String := "app_dependency_latency_seconds"

def statusFamily : String := "app_dependency_status"

def detailFamily : String := "app_dependency_status_detail"

/-- The families in the order in which they are registered. -/
def families : List String := [healthFamily, latencyFamily, statusFamily, detailFamily]

/-- The labels that every series has. -/
def baseLabels : List String := ["name", "dependency", "type", "host", "port", "critical"]

/-- The label that tells the series of a category apart. -/
def statusLabel : String := "status"

/-- The label that tells the series of a detail apart. -/
def detailLabel : String := "detail"

/-- The label of a histogram's buckets. -/
def bucketLabel : String := "le"

/-- The label names of the health and latency families. -/
def labelNames (e : Exporter) : List String :=
  baseLabels ++ e.extraLabels

/-! ### Making -/

/-- Texts in rising order, each once. -/
def sortedLabels (labels : List String) : List String :=
  (Dictionary.ofList (labels.map fun l => (l, ()))).keys

/-- An exporter without series. -/
def fresh (name : String) (extraLabels : List String) : Exporter :=
  ⟨name, extraLabels, Family.empty, Family.empty, Family.empty, Family.empty, Dictionary.empty⟩

/-- The exporter for some custom labels, before its families are registered. -/
def prepare (name : String) (labels : List String) : Except MetricsError Exporter := do
  let extra := sortedLabels labels
  (extra.forM Dependency.checkLabelName).mapError MetricsError.invalidLabel
  if extra.contains statusLabel then throw (.repeatedLabel statusLabel)
  if extra.contains detailLabel then throw (.repeatedLabel detailLabel)
  return fresh name extra

/-- Makes an exporter and registers its families; the registry afterwards. -/
def create (name : String) (labels : List String) (r : FamilyRegistry) :
    Except MetricsError Exporter × FamilyRegistry :=
  match prepare name labels with
  | .error e => (.error e, r)
  | .ok x =>
    match r.registerAll families with
    | (r, true) => (.ok x, r)
    | (r, false) => (.error .takenFamily, r)

/-- Makes an exporter with a registry of its own. -/
def alone (name : String) (labels : List String) : Except MetricsError Exporter :=
  (create name labels FamilyRegistry.empty).1

/-! ### Series -/

/-- The word for a criticality. -/
def yesNo (critical : Bool) : String :=
  if critical then "yes" else "no"

/-- The label values of an endpoint of a dependency; a custom label that it lacks is empty. -/
def labelValues (x : Exporter) (d : Dependency) (e : Endpoint) : LabelValues :=
  ⟨[x.name, d.name, d.kind.text, e.host, toString e.port.toNat, yesNo d.isCritical]
    ++ x.extraLabels.map fun l => (e.labels.get? l).getD ""⟩

/-- Sets the health of an endpoint. -/
def setHealth (x : Exporter) (d : Dependency) (e : Endpoint) (healthy : Bool) : Exporter :=
  { x with health := x.health.set (x.labelValues d e) healthy }

/-- Whether the latency family can hold series: a custom label must not be named like that of its
buckets. -/
def latencyUsable (x : Exporter) : Bool :=
  !x.extraLabels.contains bucketLabel

/-- Adds a latency of an endpoint, if the family can hold series. -/
def observeLatency? (x : Exporter) (d : Dependency) (e : Endpoint) (s : Span) : Option Exporter :=
  if x.latencyUsable then
    let values := x.labelValues d e
    let h := (x.latency.get? values).getD Histogram.empty
    some { x with latency := x.latency.set values (h.observe s) }
  else none

/-- Sets the series of one category and clears the others. -/
def setStatus (x : Exporter) (d : Dependency) (e : Endpoint) (category : Category) : Exporter :=
  let values := x.labelValues d e
  { x with
    status := Category.all.foldl
      (fun s c => s.set (values.extended c.text) (decide (c = category))) x.status }

/-- Sets the detail of an endpoint in place of the one before. -/
def setDetail (x : Exporter) (d : Dependency) (e : Endpoint) (detail : String) : Exporter :=
  let values := x.labelValues d e
  -- the table leads to the series of the detail before
  let cleared := match x.details.get? values with
    | some before => if before = detail then x.detail else x.detail.remove (values.extended before)
    | none => x.detail
  { x with
    detail := cleared.set (values.extended detail) true
    details := x.details.insert values detail }

/-! ### Taking away -/

/-- One of the places that an endpoint leaves something at. -/
inductive Removal where
  | health
  | latency
  | status
  /-- The table of details, which alone says what series of the detail family is left. -/
  | memory
  | detail (text : String)
  deriving DecidableEq, Repr

/-- The places that are known beforehand, in the order in which they are cleared. -/
def removals : List Removal := [.health, .latency, .status, .memory]

/-- Clears one place of what some label values have left there. -/
def clear (x : Exporter) (values : LabelValues) : Removal → Exporter
  | .health => { x with health := x.health.remove values }
  | .latency => { x with latency := x.latency.remove values }
  | .status =>
    { x with
      status := Category.all.foldl (fun s c => s.remove (values.extended c.text)) x.status }
  | .memory => { x with details := x.details.erase values }
  | .detail text => { x with detail := x.detail.remove (values.extended text) }

/-- What turns out to be left when a place is cleared. -/
def remainder (x : Exporter) (values : LabelValues) : Removal → List Removal
  | .memory => ((x.details.get? values).map Removal.detail).toList
  | _ => []

/-- Takes every series of an endpoint away. -/
def delete (x : Exporter) (d : Dependency) (e : Endpoint) : Exporter :=
  let values := x.labelValues d e
  (removals ++ x.remainder values .memory).foldl (fun x r => x.clear values r) x

end Exporter

end HealthMonitor
