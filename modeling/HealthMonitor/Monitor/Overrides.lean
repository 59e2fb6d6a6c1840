import HealthMonitor.Config
import HealthMonitor.Dependency.CheckPlan

/-!
# Check overrides

Check settings of which each may be left open. Those of a dependency win over those of the whole
monitor, and what both leave open is as in the standard plan. Only the initial delay has no standard
of its own: it depends on who asks.
-/

namespace HealthMonitor

/-- Check settings of which each may be left open. -/
structure CheckOverrides where
  interval : Option Span
  timeout : Option Span
  initialDelay : Option Span
  failureThreshold : Option Nat
  successThreshold : Option Nat
  deriving DecidableEq, Repr

namespace CheckOverrides

def none : CheckOverrides :=
  ⟨Option.none, Option.none, Option.none, Option.none, Option.none⟩

/-- The settings of `a`, and those of `b` where `a` leaves one open. -/
def or (a b : CheckOverrides) : CheckOverrides where
  interval := a.interval <|> b.interval
  timeout := a.timeout <|> b.timeout
  initialDelay := a.initialDelay <|> b.initialDelay
  failureThreshold := a.failureThreshold <|> b.failureThreshold
  successThreshold := a.successThreshold <|> b.successThreshold

/-- The plan of these settings, with an initial delay in case they leave it open. -/
def plan (o : CheckOverrides) (initialDelay : Span) : CheckPlan where
  interval := o.interval.getD CheckPlan.standard.interval
  timeout := o.timeout.getD CheckPlan.standard.timeout
  initialDelay := o.initialDelay.getD initialDelay
  failureThreshold := o.failureThreshold.getD CheckPlan.standard.failureThreshold
  successThreshold := o.successThreshold.getD CheckPlan.standard.successThreshold

/-- The span that a text spells. -/
def readSpan (text : String) : Except ConfigError Span :=
  match Span.parse? text with
  | some s => .ok s
  | Option.none => .error (.invalidSpan text)

/-- The span that an option spells, if it is set. -/
def readOption : Option String → Except ConfigError (Option Span)
  | some text => (readSpan text).map some
  | Option.none => .ok Option.none

/-- The settings that options spell, or the first span that none is. -/
def ofOptions (c : CheckOptions) : Except ConfigError CheckOverrides := do
  let interval ← readOption c.interval
  let timeout ← readOption c.timeout
  let initialDelay ← readOption c.initialDelay
  return ⟨interval, timeout, initialDelay, c.failureThreshold.map UInt32.toNat,
    c.successThreshold.map UInt32.toNat⟩

end CheckOverrides

end HealthMonitor
