import HealthMonitor.Scheduler.Loop

/-!
# Schedulers

A `Scheduler` owns the check loops of all endpoints. Its state says which dependencies wait for
the start, which loop serves which endpoint, every loop ever spawned, and which calls have not
returned yet. A call acts at once on what it may touch alone; what it has to wait for, such as the
end of a loop, stays in the state as a `Call`. `Scheduler.stepLoop` and `Scheduler.stepCall` take
one step each, in any order, and `Scheduler.passTo` moves the clock.
-/

namespace HealthMonitor

/-- The life of a scheduler. It only goes forward. -/
inductive Lifecycle where
  | idle
  | running
  | stopped
  deriving DecidableEq, Repr

def Lifecycle.text : Lifecycle → String
  | .idle => "Idle"
  | .running => "Running"
  | .stopped => "Stopped"

/-- Why a scheduler refuses a call. -/
inductive SchedulerError where
  | alreadyStarted
  | notStarted
  | endpointNotFound (key : String)
  | config (cause : ConfigError)
  deriving DecidableEq, Repr

def SchedulerError.message : SchedulerError → String
  | .alreadyStarted => "scheduler already started"
  | .notStarted => "scheduler not started"
  | .endpointNotFound key => "endpoint not found: " ++ key
  | .config cause => "invalid endpoint: " ++ cause.message

/-- A dependency that waits for the start, with its probe. -/
structure Registration (P : Type) where
  dependency : Dependency
  probe : P

/-- A loop that has been taken out of service. -/
structure Retired where
  loop : Nat
  /-- Whether the series of its endpoint go with it. -/
  deleteSeries : Bool
  deriving DecidableEq, Repr

/-- What is to be cleared once the loop has ended. -/
def Retired.removals (r : Retired) : List Exporter.Removal :=
  if r.deleteSeries then Exporter.removals else []

/-- How far the retirement of a loop has come. -/
inductive RetireStage where
  | signal
  | join
  /-- The loop has ended, and some places are still to be cleared. -/
  | clear (left : List Exporter.Removal)
  deriving DecidableEq, Repr

/-- A call that has not returned yet. -/
inductive Call where
  /-- A stop that waits for loops, and then for other calls that retire loops. -/
  | stopping (loops : List Nat)
  /-- A call that retires loops one after another and then reports. -/
  | retiring (left : List Retired) (stage : RetireStage) (report : LogLine)
  deriving DecidableEq, Repr

/-- Something that happened at an instant, by the number of the loop it happened in, if any. -/
structure Happening where
  moment : Instant
  loop : Option Nat
  event : LoopEvent

/-- The check loops of all endpoints and the calls about them. -/
structure Scheduler (P : Type) where
  metrics : Exporter
  /-- The plan of endpoints that are added while running. -/
  defaults : CheckPlan
  now : Instant
  lifecycle : Lifecycle
  pending : List (Registration P)
  /-- The number of the loop that serves each key. -/
  slots : Dictionary String Nat
  /-- Every loop ever spawned, by number. -/
  loops : List (CheckLoop P)
  /-- The calls that have not returned yet, the oldest first. -/
  calls : List Call
  /-- How many of them retire loops. -/
  retiring : Nat
  /-- What has happened, the latest first. -/
  journal : List Happening

namespace Scheduler

variable {P : Type}

/-- A scheduler that nothing has happened to. -/
def fresh (metrics : Exporter) (defaults : CheckPlan) : Scheduler P :=
  ⟨metrics, defaults, 0, .idle, [], Dictionary.empty, [], [], 0, []⟩

/-- Remembers what happened. -/
def note (s : Scheduler P) (loop : Option Nat) (events : List LoopEvent) : Scheduler P :=
  { s with journal := (events.map fun e => ⟨s.now, loop, e⟩).reverse ++ s.journal }

/-- Writes a line to the log. -/
def log (s : Scheduler P) (line : LogLine) : Scheduler P :=
  s.note none [.logged line]

/-- Changes a loop. -/
def modifyLoop (s : Scheduler P) (i : Nat) (f : CheckLoop P → CheckLoop P) : Scheduler P :=
  { s with loops := s.loops.modify i f }

/-- Spawns a loop and lets it serve a key. -/
def serve (s : Scheduler P) (key : String) (l : CheckLoop P) : Scheduler P :=
  { s with loops := s.loops ++ [l], slots := s.slots.insert key s.loops.length }

/-- Spawns loops, each for its key. -/
def serveAll (s : Scheduler P) (loops : List (String × CheckLoop P)) : Scheduler P :=
  loops.foldl (fun s e => s.serve e.1 e.2) s

/-! ### Calls -/

/-- Registers a dependency for the start. -/
def register (s : Scheduler P) (d : Dependency) (probe : P) :
    Except SchedulerError (Scheduler P) := do
  d.validate.mapError SchedulerError.config
  if s.lifecycle ≠ .idle then throw .alreadyStarted
  return { s with pending := s.pending ++ [⟨d, probe⟩] }

/-- The loops of a registration, by key. -/
def loopsOf (outer : Option Instant) (r : Registration P) : List (String × CheckLoop P) :=
  r.dependency.endpoints.map fun e =>
    (r.dependency.key e, CheckLoop.spawn r.dependency e r.probe outer)

/-- The loops that a start spawns, by key; of two for one key the later counts. -/
def startLoops (s : Scheduler P) (outer : Option Instant) : Dictionary String (CheckLoop P) :=
  Dictionary.ofList (s.pending.flatMap (loopsOf outer))

/-- A scheduler that has started: every key has a loop of its own. -/
def begun (s : Scheduler P) (outer : Option Instant) : Scheduler P :=
  let loops := s.startLoops outer
  let running := { s with lifecycle := .running, pending := [] }
  (running.serveAll loops.entries).log (.started loops.size)

/-- Spawns the loops of all registered dependencies. With an outer deadline they end by themselves,
and no probe of theirs runs longer. -/
def start (s : Scheduler P) (outer : Option Instant) : Except SchedulerError (Scheduler P) := do
  if s.lifecycle ≠ .idle then throw .alreadyStarted
  return s.begun outer

/-- The numbers of the loops in service. -/
def serving (s : Scheduler P) : List Nat :=
  s.slots.entries.map Prod.snd

/-- Tells loops to stop. -/
def tell (s : Scheduler P) (loops : List Nat) : Scheduler P :=
  loops.foldl (fun s i => s.modifyLoop i CheckLoop.signal) s

/-- Stops everything, if anything runs: tells every loop in service, and waits. -/
def stop (s : Scheduler P) : Scheduler P :=
  if s.lifecycle = .running then
    { s.tell s.serving with lifecycle := .stopped, calls := s.calls ++ [.stopping s.serving] }
  else s

/-- The dependency of an endpoint that is added while running. -/
def dynamicDependency (s : Scheduler P) (name : String) (kind : Kind) (critical : Bool)
    (e : Endpoint) : Dependency :=
  ⟨name, kind, some critical, [e], s.defaults⟩

/-- Adds an endpoint while running. One that is served already stays as it is. -/
def addEndpoint (s : Scheduler P) (name : String) (kind : Kind) (critical : Bool) (e : Endpoint)
    (probe : P) : Except SchedulerError (Scheduler P) := do
  let d := s.dynamicDependency name kind critical e
  d.validate.mapError SchedulerError.config
  if s.lifecycle ≠ .running then throw .notStarted
  let key := d.key e
  if s.slots.contains key then return s
  return (s.serve key (CheckLoop.spawn d e probe none)).log (.endpointAdded key)

/-- Leaves the retirement of loops to a call of its own. -/
def retire (s : Scheduler P) (retired : List Retired) (report : LogLine) : Scheduler P :=
  { s with
    calls := s.calls ++ [.retiring retired .signal report]
    retiring := s.retiring + 1 }

/-- Takes an endpoint out of service, its loop and its series with it. -/
def removeEndpoint (s : Scheduler P) (name host : String) (port : UInt16) :
    Except SchedulerError (Scheduler P) := do
  if s.lifecycle ≠ .running then throw .notStarted
  let key := Endpoint.keyOf name host port
  match s.slots.get? key with
  | none => return s
  | some i =>
    -- the key is free at once, the series go when the loop has ended
    let cleared := { s with slots := s.slots.erase key }
    return cleared.retire [⟨i, true⟩] (.endpointRemoved key)

/-- Whether two endpoints of dependencies have the same series. -/
def sameSeries (d : Dependency) (e : Endpoint) (d' : Dependency) (e' : Endpoint) : Bool :=
  d.name == d'.name && d.kind == d'.kind && d.isCritical == d'.isCritical && e == e'

/-- The retirement of the loop with a number in favour of a new one. -/
def retiredFor (s : Scheduler P) (d : Dependency) (e : Endpoint) (i : Nat) : List Retired :=
  match s.loops[i]? with
  | some l => [⟨i, !sameSeries l.dependency l.endpoint d e⟩]
  | none => []

/-- The loops that make way for a new one: the one in service under the old key, and one that
already serves the new key. -/
def makingWay (s : Scheduler P) (oldKey newKey : String) (i : Nat) : List Nat :=
  i :: ((s.slots.erase oldKey).get? newKey).toList

/-- A scheduler that serves a new endpoint in the place of the loop with a number. -/
def replaced (s : Scheduler P) (oldKey : String) (i : Nat) (old : CheckLoop P) (e : Endpoint)
    (probe : P) : Scheduler P :=
  let d := { old.dependency with endpoints := [e] }
  let newKey := d.key e
  let cleared := { s with slots := s.slots.erase oldKey }
  let retired := (s.makingWay oldKey newKey i).flatMap (s.retiredFor d e)
  -- the new loop may run before any of these has been told to stop
  let served := cleared.serve newKey (CheckLoop.spawn d e probe none)
  served.retire retired (.endpointUpdated oldKey newKey)

/-- Puts a new endpoint in the place of one in service. The dependency keeps everything else. -/
def updateEndpoint (s : Scheduler P) (name oldHost : String) (oldPort : UInt16) (e : Endpoint)
    (probe : P) : Except SchedulerError (Scheduler P) := do
  (Dependency.checkLabels e.labels).mapError SchedulerError.config
  let oldKey := Endpoint.keyOf name oldHost oldPort
  if s.lifecycle ≠ .running then throw .notStarted
  let some i := s.slots.get? oldKey | throw (.endpointNotFound oldKey)
  let some old := s.loops[i]? | throw (.endpointNotFound oldKey)
  return s.replaced oldKey i old e probe

/-! ### Steps -/

/-- Lets a loop take its next step, if it can take one. -/
def stepLoop (s : Scheduler P) (i : Nat) : Option (Scheduler P) := do
  let l ← s.loops[i]?
  let p ← l.step s.metrics s.now
  some ({ s with loops := s.loops.set i p.loop, metrics := p.metrics }.note (some i) p.events)

/-- Whether a loop has ended. -/
def isDone (s : Scheduler P) (i : Nat) : Bool :=
  s.loops[i]?.all CheckLoop.isDone

/-- Whether a loop has broken down. -/
def isBroken (s : Scheduler P) (i : Nat) : Bool :=
  s.loops[i]?.any fun l => match l.phase with
    | .broken => true
    | _ => false

/-- Takes notice of the end of a loop. -/
def noticeEnd (s : Scheduler P) (i : Nat) : Scheduler P :=
  if s.isBroken i then s.log .loopBroken else s

/-- The label values of a loop's endpoint. -/
def labelsOf (s : Scheduler P) (l : CheckLoop P) : LabelValues :=
  s.metrics.labelValues l.dependency l.endpoint

/-- Clears a place of what the endpoint of a loop has left there, and says what is left then. -/
def clearPlace (s : Scheduler P) (i : Nat) (r : Exporter.Removal) :
    Scheduler P × List Exporter.Removal :=
  match s.loops[i]? with
  | some l =>
    ({ s with metrics := s.metrics.clear (s.labelsOf l) r }, s.metrics.remainder (s.labelsOf l) r)
  | none => (s, [])

/-- What becomes of a call and the scheduler in one step, if the call need not wait; a call that
returns leaves nothing. -/
def advance (s : Scheduler P) : Call → Option (Scheduler P × Option Call)
  | .stopping (i :: rest) =>
    if s.isDone i then some (s.noticeEnd i, some (.stopping rest)) else none
  | .stopping [] => if s.retiring = 0 then some (s.log .stopped, none) else none
  | .retiring (r :: rest) .signal report =>
    some (s.modifyLoop r.loop CheckLoop.signal, some (.retiring (r :: rest) .join report))
  | .retiring (r :: rest) .join report =>
    if s.isDone r.loop then
      some (s.noticeEnd r.loop, some (.retiring (r :: rest) (.clear r.removals) report))
    else none
  | .retiring (r :: rest) (.clear (a :: left)) report =>
    -- what is found only now is cleared next
    let (cleared, found) := s.clearPlace r.loop a
    some (cleared, some (.retiring (r :: rest) (.clear (found ++ left)) report))
  | .retiring (_ :: rest) (.clear []) report => some (s, some (.retiring rest .signal report))
  | .retiring [] _ report =>
    some ({ s with retiring := s.retiring - 1 }.log report, none)

/-- Lets the call at a place take its next step, if it need not wait. -/
def stepCall (s : Scheduler P) (j : Nat) : Option (Scheduler P) := do
  let c ← s.calls[j]?
  let (s, after) ← s.advance c
  match after with
  | some c => some { s with calls := s.calls.set j c }
  | none => some { s with calls := s.calls.eraseIdx j }

/-- Moves the clock forward. -/
def passTo (s : Scheduler P) (t : Instant) : Scheduler P :=
  { s with now := max s.now t }

/-- Ends the running probe of a loop. -/
def endProbe (s : Scheduler P) (i : Nat) (ending : ProbeEnd) : Scheduler P :=
  s.modifyLoop i fun l => l.endProbe ending

/-! ### Snapshots -/

/-- The loops in service, by key. -/
def inService (s : Scheduler P) : List (String × CheckLoop P) :=
  s.slots.entries.filterMap fun e => s.loops[e.2]?.map fun l => (e.1, l)

/-- The health of every endpoint in service that has been checked. -/
def health (s : Scheduler P) : List (String × Bool) :=
  s.inService.filterMap fun e => e.2.state.tracker.healthy.map fun h => (e.1, h)

/-- The status of every endpoint in service. -/
def details (s : Scheduler P) : List (String × EndpointStatus) :=
  s.inService.map fun e => (e.1, EndpointStatus.ofState e.2.dependency e.2.endpoint e.2.state)

/-- A scheduler in one line. -/
def describe (s : Scheduler P) : String :=
  "Scheduler \x7b lifecycle: " ++ s.lifecycle.text ++ ", endpoints: "
    ++ toString s.slots.size ++ ", .. \x7d"

end Scheduler

end HealthMonitor
