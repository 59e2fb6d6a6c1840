import HealthMonitor.Monitor.Basic
import HealthMonitor.Monitor.Spec

/-!
# Building monitors

A `Blueprint` says all that a monitor is made from: its name, its dependency specs, the registry
of probes, the environment, and the registry of families that its metrics go into. `Blueprint.build`
makes the monitor, or tells the first thing that is in the way; either way it tells which probes
the registry was asked for and which families are registered afterwards.
-/

namespace HealthMonitor

/-- All that a monitor is made from. -/
structure Blueprint (P : Type) where
  /-- The name of the instance; an empty one counts as none. -/
  name : Option String
  /-- The check settings of dependencies that leave theirs open. -/
  check : CheckOverrides
  registry : ProbeRegistry P
  /-- What the metric families are registered with, if not on their own. -/
  familyRegistry : Option FamilyRegistry
  environment : Environment
  specs : List (DependencySpec P)

/-- A request for a probe to a registry. -/
structure ProbeRequest where
  kind : Kind
  settings : ProbeSettings
  deriving DecidableEq, Repr

/-- A dependency with the probe that checks it. -/
structure Resolved (P : Type) where
  dependency : Dependency
  handle : Handle P

/-- What has become of a spec, and whether the registry made a probe on the way. -/
structure Resolution (P : Type) where
  result : Except ConfigError (Resolved P)
  requests : List ProbeRequest

/-- What has become of a blueprint. -/
structure Construction (P : Type) where
  result : Except BuildError (Monitor P)
  /-- The probes that the registry made, in order. -/
  requests : List ProbeRequest
  /-- What the metric families were to be registered with, as it is now. -/
  familyRegistry : Option FamilyRegistry

namespace Blueprint

variable {P : Type}

/-- A blueprint without dependencies. -/
def plain (name : Option String) (registry : ProbeRegistry P) (environment : Environment) :
    Blueprint P :=
  ⟨name, CheckOverrides.none, registry, none, environment, []⟩

/-- The blueprint of a configuration. -/
def ofConfig (c : Config) (registry : ProbeRegistry P) (environment : Environment) :
    Except ConfigError (Blueprint P) := do
  let check ← match c.defaults with
    | some options => CheckOverrides.ofOptions options
    | none => pure CheckOverrides.none
  let specs ← c.dependencies.mapM fun d =>
    (DependencySpec.ofConfig d).mapError (ConfigError.within d.name)
  return { plain c.name registry environment with check := check, specs := specs }

/-! ### Dependencies -/

/-- The name of the instance. -/
def instanceName (b : Blueprint P) : Except ConfigError String := do
  let given := b.name.filter fun n => !n.isEmpty
  let some name := given <|> b.environment.name? | throw .missingName
  Dependency.checkName name
  return name

/-- A validated dependency and its probe. -/
def accept (d : Dependency) (handle : Handle P) : Except ConfigError (Resolved P) :=
  d.validate.map fun _ => ⟨d, handle⟩

/-- Turns a spec into a dependency and a probe with a number. -/
def resolveSpec (b : Blueprint P) (serial : Nat) (s : DependencySpec P) : Resolution P :=
  match s.prepare b.environment b.check with
  | .error e => ⟨.error e, []⟩
  | .ok (d, settings) =>
    match s.probe with
    | some probe => ⟨accept d ⟨serial, probe⟩, []⟩
    | none =>
      match b.registry.create s.kind settings with
      | .error e => ⟨.error e, []⟩
      | .ok probe => ⟨accept d ⟨serial, probe⟩, [⟨s.kind, settings⟩]⟩

/-- Turns specs into dependencies and probes, numbered from `serial` on, up to the first that cannot
be. -/
def resolveFrom (b : Blueprint P) (serial : Nat) :
    List (DependencySpec P) → Except ConfigError (List (Resolved P)) × List ProbeRequest
  | [] => (.ok [], [])
  | s :: rest =>
    let first := b.resolveSpec serial s
    match first.result with
    | .error e => (.error (e.within s.name), first.requests)
    | .ok r =>
      let (others, requests) := b.resolveFrom (serial + 1) rest
      (others.map fun rs => r :: rs, first.requests ++ requests)

def resolve (b : Blueprint P) : Except ConfigError (List (Resolved P)) × List ProbeRequest :=
  b.resolveFrom 0 b.specs

/-! ### The monitor -/

/-- The names of all labels of all endpoints. -/
def labelNames (rs : List (Resolved P)) : List String :=
  Exporter.sortedLabels
    (rs.flatMap fun r => r.dependency.endpoints.flatMap fun e => e.labels.keys)

/-- The probe of each dependency; of two dependencies of one name the later counts. -/
def probesOf (rs : List (Resolved P)) : Dictionary String (Handle P) :=
  Dictionary.ofList (rs.map fun r => (r.dependency.name, r.handle))

/-- Registers dependencies one after another. -/
def registerAll (s : Scheduler (Handle P)) (rs : List (Resolved P)) :
    Except SchedulerError (Scheduler (Handle P)) :=
  rs.foldlM (fun s r => s.register r.dependency r.handle) s

/-- Puts the parts of a monitor together. -/
def assemble (b : Blueprint P) (name : String) (x : Exporter) (rs : List (Resolved P)) :
    Except BuildError (Monitor P) := do
  let defaults := b.check.plan CheckPlan.standard.initialDelay
  defaults.validate.mapError BuildError.config
  let s ← (registerAll (Scheduler.fresh x defaults) rs).mapError BuildError.scheduler
  let probes := probesOf rs
  return ⟨name, b.registry, probes, b.specs.length, s.log (.built name probes.size)⟩

/-- Makes the monitor of a blueprint. -/
def build (b : Blueprint P) : Construction P :=
  match b.instanceName with
  | .error e => ⟨.error (.config e), [], b.familyRegistry⟩
  | .ok name =>
    match b.resolve with
    | (.error e, requests) => ⟨.error (.config e), requests, b.familyRegistry⟩
    | (.ok rs, requests) =>
      let (made, registered) :=
        Exporter.create name (labelNames rs) (b.familyRegistry.getD FamilyRegistry.empty)
      match made with
      | .error e => ⟨.error (.metrics e), requests, b.familyRegistry.map fun _ => registered⟩
      | .ok x => ⟨b.assemble name x rs, requests, b.familyRegistry.map fun _ => registered⟩

end Blueprint

end HealthMonitor
