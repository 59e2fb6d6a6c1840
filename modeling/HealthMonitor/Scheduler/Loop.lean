import HealthMonitor.Health.Status
import HealthMonitor.Log
import HealthMonitor.Metrics.Exporter

/-!
# Check loops

A `CheckLoop` checks one endpoint again and again: it waits for the initial delay, launches a
probe, publishes how the probe ended, and waits for the next tick. `CheckLoop.step` is what a loop
does next at an instant, if it can do anything; publishing takes one step for each of the places
that are written to. A loop that is told to stop, or whose outer deadline has come, ends at its
next step outside publishing, whatever else has become due.
-/

namespace HealthMonitor

/-- Nanoseconds since a clock was started. -/
abbrev Instant := Nat

/-- How a probe came to its end. -/
inductive ProbeEnd where
  | returned (outcome : Outcome)
  | panicked (message : String)

/-- A probe that has been launched. -/
structure Attempt where
  started : Instant
  deadline : Instant
  /-- How the probe ended, once it has. -/
  ending : Option ProbeEnd
  /-- When the next tick is due; for the first probe this depends on its end. -/
  nextTick : Option Instant

/-- A place that the result of a check is written to. -/
inductive Place where
  | latency
  | status
  | detail
  | state
  | health
  deriving DecidableEq, Repr

/-- A finished check that is being published. -/
structure Publication where
  outcome : Outcome
  verdict : Verdict
  latency : Span
  /-- The places that are still to be written to. -/
  left : List Place
  /-- What the check did to the health, once that is known. -/
  transition : Transition
  nextTick : Option Instant

/-- Where a loop stands. -/
inductive Phase where
  /-- Not run yet. -/
  | spawned
  | delaying (due : Instant)
  | probing (attempt : Attempt)
  | publishing (publication : Publication)
  | waiting (due : Instant)
  | finished
  /-- Broken down while publishing. -/
  | broken

/-- The loop of one endpoint. -/
structure CheckLoop (P : Type) where
  dependency : Dependency
  endpoint : Endpoint
  probe : P
  /-- The instant at which the loop ends by itself, if there is one. -/
  outer : Option Instant
  /-- Whether the loop has been told to stop. -/
  stopped : Bool
  state : EndpointState
  phase : Phase

/-- What a step of a loop is remembered by. -/
inductive LoopEvent where
  | launched (deadline : Instant)
  | recorded (verdict : Verdict) (latency : Span)
  | logged (line : LogLine)

namespace CheckLoop

variable {P : Type}

/-- A loop that has not run yet. -/
def spawn (dependency : Dependency) (endpoint : Endpoint) (probe : P) (outer : Option Instant) :
    CheckLoop P where
  dependency := dependency
  endpoint := endpoint
  probe := probe
  outer := outer
  stopped := false
  state := EndpointState.fresh dependency.plan
  phase := .spawned

def plan (l : CheckLoop P) : CheckPlan := l.dependency.plan

def subject (l : CheckLoop P) : LogSubject :=
  ⟨l.dependency.name, l.dependency.kind, l.endpoint.host, l.endpoint.port⟩

/-- Whether a loop has ended, one way or the other. -/
def isDone (l : CheckLoop P) : Bool :=
  match l.phase with
  | .finished | .broken => true
  | _ => false

/-- Whether a loop is to end. -/
def isCancelled (l : CheckLoop P) (now : Instant) : Bool :=
  l.stopped || l.outer.any fun d => decide (d ≤ now)

/-- Tells a loop to stop. -/
def signal (l : CheckLoop P) : CheckLoop P :=
  { l with stopped := true }

/-- Notes how the running probe of a loop ended. -/
def endProbe (l : CheckLoop P) (ending : ProbeEnd) : CheckLoop P :=
  match l.phase with
  | .probing a => { l with phase := .probing { a with ending := a.ending <|> some ending } }
  | _ => l

/-- A loop after a step, the exporter after it, and what happened. -/
structure Progress (P : Type) where
  loop : CheckLoop P
  metrics : Exporter
  events : List LoopEvent

/-- Only moves on to another phase. -/
def moveTo (l : CheckLoop P) (x : Exporter) (phase : Phase) : Progress P :=
  ⟨{ l with phase := phase }, x, []⟩

/-- The deadline of a probe that starts at an instant. -/
def deadlineFrom (l : CheckLoop P) (now : Instant) : Instant :=
  match l.outer with
  | some d => min (now + l.plan.timeout.nanos) d
  | none => now + l.plan.timeout.nanos

/-- Launches a probe, unless the loop is to end. -/
def launch (l : CheckLoop P) (x : Exporter) (now : Instant) (nextTick : Option Instant) :
    Progress P :=
  if l.isCancelled now then l.moveTo x .finished
  else
    let deadline := l.deadlineFrom now
    ⟨{ l with phase := .probing ⟨now, deadline, none, nextTick⟩ }, x, [.launched deadline]⟩

/-- How late a tick may come without shifting the ones behind it. -/
def tolerance : Nat := 5000000

/-- The tick after one that was due at `due` and came at `now`. -/
def tickAfter (l : CheckLoop P) (due now : Instant) : Instant :=
  if due + tolerance < now then now + l.plan.interval.nanos else due + l.plan.interval.nanos

/-- The outcome that an end of a probe stands for. -/
def outcomeOf : ProbeEnd → Outcome
  | .returned outcome => outcome
  | .panicked message => .error (.panicked message)

/-- The log line of a probe that panicked. -/
def panicLines (l : CheckLoop P) : ProbeEnd → List LogLine
  | .returned _ => []
  | .panicked message => [.probePanicked l.subject message]

/-- The places in the order in which they are written to. -/
def places : List Place := [.latency, .status, .detail, .state, .health]

/-- Starts to publish an outcome that has come at an instant. -/
def publish (l : CheckLoop P) (x : Exporter) (now : Instant) (a : Attempt) (outcome : Outcome)
    (lines : List LogLine) : Progress P :=
  -- no check takes no time
  let latency : Span := ⟨max (now - a.started) 1⟩
  let p : Publication :=
    ⟨outcome, Verdict.ofOutcome outcome, latency, places, .unchanged, a.nextTick⟩
  ⟨{ l with phase := .publishing p }, x, lines.map LoopEvent.logged⟩

/-- Writes to a place; nothing when that breaks the loop down. -/
def write? (l : CheckLoop P) (x : Exporter) (now : Instant) (p : Publication) :
    Place → Option (Progress P)
  | .latency =>
    (x.observeLatency? l.dependency l.endpoint p.latency).map fun x => l.moveTo x (.publishing p)
  | .status =>
    some (l.moveTo (x.setStatus l.dependency l.endpoint p.verdict.category) (.publishing p))
  | .detail =>
    some (l.moveTo (x.setDetail l.dependency l.endpoint p.verdict.detail) (.publishing p))
  | .state =>
    let stamp : Stamp := ⟨(now / 1000000000 : Nat), now % 1000000000⟩
    let (transition, state) := l.state.record p.verdict p.latency stamp
    some ⟨{ l with state := state, phase := .publishing { p with transition := transition } }, x,
      [.recorded p.verdict p.latency]⟩
  | .health =>
    let healthy := l.state.tracker.healthy.getD false
    some (l.moveTo (x.setHealth l.dependency l.endpoint healthy) (.publishing p))

/-- The log lines about a published check. -/
def resultLines (l : CheckLoop P) (p : Publication) : List LogLine :=
  let failed := match p.outcome with
    | .ok () => []
    | .error f => [LogLine.checkFailed l.subject f.message]
  let changed := match p.transition with
    | .becameUnhealthy => [LogLine.becameUnhealthy l.subject l.state.tracker.failures]
    | .becameHealthy => [LogLine.recovered l.subject]
    | _ => []
  failed ++ changed

/-- Writes to the next place, or waits for the next tick when all are written to. -/
def publishOn (l : CheckLoop P) (x : Exporter) (now : Instant) (p : Publication) : Progress P :=
  match p.left with
  | [] =>
    let due := p.nextTick.getD (now + l.plan.interval.nanos)
    ⟨{ l with phase := .waiting due }, x, (l.resultLines p).map LoopEvent.logged⟩
  | place :: rest =>
    match l.write? x now { p with left := rest } place with
    | some progress => progress
    | none => l.moveTo x .broken

/-- What a loop does next at an instant, if it can do anything. -/
def step (l : CheckLoop P) (x : Exporter) (now : Instant) : Option (Progress P) :=
  match l.phase with
  | .spawned =>
    if l.plan.initialDelay.nanos = 0 then some (l.launch x now none)
    else if l.isCancelled now then some (l.moveTo x .finished)
    else some (l.moveTo x (.delaying (now + l.plan.initialDelay.nanos)))
  | .delaying due =>
    if l.isCancelled now then some (l.moveTo x .finished)
    else if due ≤ now then some (l.launch x now none)
    else none
  | .probing a =>
    -- an attempt is given up even if its probe has ended in the meantime
    if l.isCancelled now then some (l.moveTo x .finished)
    else
      match a.ending with
      | some ending => some (l.publish x now a (outcomeOf ending) (l.panicLines ending))
      | none =>
        if a.deadline ≤ now then
          some (l.publish x now a (.error (.deadline l.plan.timeout)) [])
        else none
  | .publishing p => some (l.publishOn x now p)
  | .waiting due =>
    if l.isCancelled now then some (l.moveTo x .finished)
    else if due ≤ now then some (l.launch x now (some (l.tickAfter due now)))
    else none
  | .finished => none
  | .broken => none

/-- The instants at which a loop may have something to do, if nothing else happens first. -/
def dues (l : CheckLoop P) : List Instant :=
  let own := match l.phase with
    | .delaying due => [due]
    | .probing a => [a.deadline]
    | .waiting due => [due]
    | _ => []
  if l.isDone then [] else own ++ l.outer.toList

end CheckLoop

end HealthMonitor
