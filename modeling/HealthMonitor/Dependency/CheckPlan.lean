import HealthMonitor.ConfigError

/-!
# Check plans

A `CheckPlan` says how often an endpoint is checked, how long one check may take, how long the first
one waits, and how many equal outcomes in a row flip the health. A plan is usable when each setting
is in its range and a check ends before the next is due.
-/

namespace HealthMonitor

/-- Timing and sensitivity of the checks of one dependency. -/
structure CheckPlan where
  interval : Span
  timeout : Span
  initialDelay : Span
  failureThreshold : Nat
  successThreshold : Nat
  deriving DecidableEq, Repr

namespace CheckPlan

/-- The plan of a dependency that sets nothing. -/
def standard : CheckPlan where
  interval := Span.ofSeconds 15
  timeout := Span.ofSeconds 5
  initialDelay := Span.ofSeconds 5
  failureThreshold := 1
  successThreshold := 1

instance : Inhabited CheckPlan := ⟨standard⟩

def leastInterval : Span := Span.ofSeconds 1

def greatestInterval : Span := Span.ofMinutes 10

def leastTimeout : Span := Span.ofMillis 100

def greatestTimeout : Span := Span.ofSeconds 30

def greatestInitialDelay : Span := Span.ofMinutes 5

def leastThreshold : Nat := 1

def greatestThreshold : Nat := 10

/-- Refuses a span outside a closed range. -/
def checkSpan (setting : CheckSetting) (value least greatest : Span) : Except ConfigError Unit :=
  if value < least || greatest < value then
    .error (.spanOutOfRange setting value least greatest)
  else .ok ()

/-- Refuses a threshold outside its range. -/
def checkThreshold (setting : CheckSetting) (value : Nat) : Except ConfigError Unit :=
  if value < leastThreshold || greatestThreshold < value then
    .error (.countOutOfRange setting value leastThreshold greatestThreshold)
  else .ok ()

/-- Refuses a plan by its first setting that is out of range. -/
def validate (p : CheckPlan) : Except ConfigError Unit := do
  checkSpan .interval p.interval leastInterval greatestInterval
  checkSpan .timeout p.timeout leastTimeout greatestTimeout
  if p.interval ≤ p.timeout then throw (.timeoutNotBelowInterval p.timeout p.interval)
  checkSpan .initialDelay p.initialDelay Span.zero greatestInitialDelay
  checkThreshold .failureThreshold p.failureThreshold
  checkThreshold .successThreshold p.successThreshold

end CheckPlan

end HealthMonitor
