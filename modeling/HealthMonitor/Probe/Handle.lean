import HealthMonitor.Dependency.Kind

/-!
# Probes in use

Whatever a probe is, it has a kind. A `Handle` is a probe in use: two uses of one description are
two probes, told apart by their numbers.
-/

namespace HealthMonitor

/-- Types of probes: each probe checks dependencies of one kind. -/
class HasKind (P : Type) where
  kindOf : P → Kind

export HasKind (kindOf)

/-- A probe in use. -/
structure Handle (P : Type) where
  serial : Nat
  probe : P
  deriving Repr

instance {P : Type} [HasKind P] : HasKind (Handle P) := ⟨fun h => kindOf h.probe⟩

end HealthMonitor
