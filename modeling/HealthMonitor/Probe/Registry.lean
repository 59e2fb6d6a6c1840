import HealthMonitor.ConfigError
import HealthMonitor.Probe.Settings

/-!
# Probe registries

A registry knows how to make the probe of a dependency from its settings, kind by kind. Making a
probe of a kind that it does not know is a configuration error.
-/

namespace HealthMonitor

/-- Makers of probes by kind; of two for one kind the first counts. -/
structure ProbeRegistry (P : Type) where
  makers : List (Kind × (ProbeSettings → P))

namespace ProbeRegistry

variable {P : Type}

def empty : ProbeRegistry P := ⟨[]⟩

/-- Adds the maker of a kind, in place of an earlier one. -/
def register (r : ProbeRegistry P) (kind : Kind) (make : ProbeSettings → P) : ProbeRegistry P :=
  ⟨(kind, make) :: r.makers⟩

/-- The maker of a kind. -/
def maker? (r : ProbeRegistry P) (kind : Kind) : Option (ProbeSettings → P) :=
  r.makers.lookup kind

def supports (r : ProbeRegistry P) (kind : Kind) : Bool :=
  (r.maker? kind).isSome

/-- The kinds that have a maker, in the order of kinds. -/
def kinds (r : ProbeRegistry P) : List Kind :=
  Kind.all.filter r.supports

/-- Makes the probe of a kind. -/
def create (r : ProbeRegistry P) (kind : Kind) (settings : ProbeSettings) : Except ConfigError P :=
  match r.maker? kind with
  | some make => .ok (make settings)
  | none => .error (.noProbe kind)

end ProbeRegistry

end HealthMonitor
