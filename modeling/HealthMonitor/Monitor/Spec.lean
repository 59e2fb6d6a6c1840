import HealthMonitor.Dependency.Basic
import HealthMonitor.Monitor.Environment
import HealthMonitor.Monitor.Overrides
import HealthMonitor.Monitor.Source

/-!
# Dependency specs

A `DependencySpec` declares a dependency before anything about it is checked.
`DependencySpec.prepare` turns it into a dependency, with the environment for what it leaves out,
and into the settings of its probe. Labels of the spec and of the environment are put on every
endpoint.
-/

namespace HealthMonitor

/-- A dependency as it is declared. -/
structure DependencySpec (P : Type) where
  name : String
  kind : Kind
  source : Option EndpointSource
  critical : Option Bool
  labels : Labels
  check : CheckOverrides
  settings : ProbeSettings
  /-- The probe to use instead of one from a registry. -/
  probe : Option P

namespace DependencySpec

variable {P : Type}

/-- The source that the options of a configured dependency name, the strongest of them. -/
def sourceOf (c : DependencyConfig) : Except ConfigError (Option EndpointSource) :=
  match c.url, c.jdbc, c.connectionString, c.host with
  | some text, _, _, _ => .ok (some (.url text))
  | none, some text, _, _ => .ok (some (.jdbc text))
  | none, none, some text, _ => .ok (some (.connectionString text))
  | none, none, none, some host =>
    match c.port <|> c.kind.usualPort? with
    | some port => .ok (some (.params host (toString port.toNat)))
    | none => .error (.invalidPort "")
  | none, none, none, none => .ok none

/-- The spec of a configured dependency. -/
def ofConfig (c : DependencyConfig) : Except ConfigError (DependencySpec P) := do
  let source ← sourceOf c
  let check ← CheckOverrides.ofOptions c.check
  return ⟨c.name, c.kind, source, c.critical, c.labels, check, c.probe, none⟩

/-- The labels of a spec with those that only the environment gives. Of two that the environment
gives under one name the one listed first counts. -/
def allLabels (s : DependencySpec P) (env : Environment) : Labels :=
  (env.labels s.name).foldl (fun labels l => labels.insertNew l.1 l.2) s.labels

/-- An endpoint with more labels, which replace those of the same name. -/
def relabel (labels : Labels) (e : Endpoint) : Endpoint :=
  { e with labels := e.labels.insertAll labels.entries }

/-- The settings of the probe: a URL that asks for TLS turns it on unless the settings say something
about it. -/
def probeSettings (s : DependencySpec P) (source : EndpointSource) : ProbeSettings :=
  if s.kind = .http && s.settings.tls.isNone && source.isSecured then
    { s.settings with tls := some true }
  else s.settings

/-- The dependency that a spec declares, not yet validated, and the settings of its probe. -/
def prepare (s : DependencySpec P) (env : Environment) (fallback : CheckOverrides) :
    Except ConfigError (Dependency × ProbeSettings) := do
  Dependency.checkName s.name
  let some source := s.source | throw .missingSource
  let endpoints ← source.endpoints s.kind
  let some critical := s.critical <|> env.critical? s.name | throw (.missingCritical s.name)
  Dependency.checkLabels s.labels
  let labels := s.allLabels env
  let settings := s.probeSettings source
  settings.checkAuth
  let plan := (s.check.or fallback).plan Span.zero
  return (⟨s.name, s.kind, some critical, endpoints.map (relabel labels), plan⟩, settings)

end DependencySpec

end HealthMonitor
