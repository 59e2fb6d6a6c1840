/-!
# Debounced health

A `Tracker` turns the outcomes of checks into a health that does not flicker. The first outcome sets
the health; after that it flips only when the opposite outcome has come as often in a row as the
threshold of that polarity asks.
-/

namespace HealthMonitor

/-- What an outcome did to the health. -/
inductive Transition where
  | initial (healthy : Bool)
  | becameUnhealthy
  | becameHealthy
  | unchanged
  deriving DecidableEq, Repr

/-- The health of one endpoint and the outcomes in a row that led to it. -/
structure Tracker where
  /-- Nothing before the first outcome. -/
  healthy : Option Bool
  failures : Nat
  successes : Nat
  failureThreshold : Nat
  successThreshold : Nat
  deriving DecidableEq, Repr, Inhabited

namespace Tracker

/-- A tracker before its first outcome. -/
def fresh (failureThreshold successThreshold : Nat) : Tracker :=
  ⟨none, 0, 0, failureThreshold, successThreshold⟩

/-- The lengths of the run of failures and of the run of successes after an outcome. -/
def count (t : Tracker) (success : Bool) : Tracker :=
  if success then { t with failures := 0, successes := t.successes + 1 }
  else { t with failures := t.failures + 1, successes := 0 }

/-- What an outcome does to a known health, once it is counted. -/
def judge (t : Tracker) (healthy success : Bool) : Transition :=
  if success && !healthy && decide (t.successThreshold ≤ t.successes) then .becameHealthy
  else if !success && healthy && decide (t.failureThreshold ≤ t.failures) then .becameUnhealthy
  else .unchanged

/-- The health after a transition. -/
def healthAfter (healthy : Option Bool) : Transition → Option Bool
  | .initial h => some h
  | .becameHealthy => some true
  | .becameUnhealthy => some false
  | .unchanged => healthy

/-- Takes an outcome in. -/
def record (t : Tracker) (success : Bool) : Transition × Tracker :=
  let counted := t.count success
  let transition := match t.healthy with
    | none => .initial success
    | some healthy => counted.judge healthy success
  (transition, { counted with healthy := healthAfter t.healthy transition })

/-- Takes outcomes in, one after another. -/
def recordAll (t : Tracker) (outcomes : List Bool) : Tracker :=
  outcomes.foldl (fun t o => (t.record o).2) t

end Tracker

end HealthMonitor
