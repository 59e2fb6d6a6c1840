import HealthMonitor.Probe.Handle
import HealthMonitor.Scheduler.Basic

/-!
# Timelines

A `Timeline` runs a scheduler on a clock that moves only when it is told to, with probes that play
a script. At every instant all loops do what they can, then the calls in flight go on in their
order, and so forth until nothing moves. `Timeline.sleep` stops at each instant at which something
is due; `Timeline.skip` moves the clock at once, and everything due by then finds it late.
-/

namespace HealthMonitor

/-- How a scripted probe ends. -/
inductive Act where
  | returns (outcome : Outcome)
  | panics (message : String)
  /-- Panics with a message that names the host. -/
  | panicsAtHost
  /-- Returns what it finds at an endpoint, if it ever finds anything there. -/
  | finds (outcome : Endpoint → Option Outcome)
  /-- Never ends. -/
  | hangs

/-- One turn of a script: how long the probe takes and how it ends. -/
structure Turn where
  delay : Span
  act : Act

/-- A turn that succeeds at once. -/
def Turn.ok : Turn := ⟨Span.zero, .returns (.ok ())⟩

instance : Inhabited Turn := ⟨Turn.ok⟩

/-- A probe that plays its script from the start at every address, and repeats the last turn. -/
structure ScriptedProbe where
  name : String
  kind : Kind
  script : List Turn

instance : HasKind ScriptedProbe := ⟨ScriptedProbe.kind⟩

namespace ScriptedProbe

/-- The turn with a number; a probe without a script succeeds at once. -/
def turn (p : ScriptedProbe) (n : Nat) : Turn :=
  match p.script[n]? with
  | some t => t
  | none => p.script.getLast?.getD Turn.ok

/-- The end of a turn at an endpoint, if it has one. -/
def endOf? (e : Endpoint) : Act → Option ProbeEnd
  | .returns outcome => some (.returned outcome)
  | .panics message => some (.panicked message)
  | .panicsAtHost => some (.panicked ("exploded at " ++ e.host))
  | .finds outcome => (outcome e).map ProbeEnd.returned
  | .hangs => none

end ScriptedProbe

/-- A probe that will end at an instant. -/
structure Running where
  loop : Nat
  due : Instant
  ending : ProbeEnd

/-- How many turns a probe has taken at an address. -/
structure Cursor where
  serial : Nat
  address : String
  taken : Nat
  deriving DecidableEq, Repr

/-- Whether a cursor is that of a probe at an address. -/
def Cursor.isAt (c : Cursor) (serial : Nat) (address : String) : Bool :=
  c.serial == serial && c.address == address

/-- A launch of a probe. -/
structure Launch where
  moment : Instant
  probe : String
  address : String
  deadline : Instant
  deriving DecidableEq, Repr

/-- A scheduler of scripted probes. -/
abbrev ScriptedScheduler := Scheduler (Handle ScriptedProbe)

/-- A scheduler on a clock of its own, and what its probes are at. -/
structure Timeline where
  scheduler : ScriptedScheduler
  running : List Running
  cursors : List Cursor
  /-- The launches so far, the latest first. -/
  launches : List Launch

namespace Timeline

/-- A timeline at its start. -/
def fresh (s : ScriptedScheduler) : Timeline := ⟨s, [], [], []⟩

def now (t : Timeline) : Instant := t.scheduler.now

/-! ### Probes -/

/-- The number of turns that a probe has taken at an address. -/
def turnsTaken (t : Timeline) (serial : Nat) (address : String) : Nat :=
  ((t.cursors.find? fun c => c.isAt serial address).map Cursor.taken).getD 0

/-- Counts a turn. -/
def takeTurn (t : Timeline) (serial : Nat) (address : String) : List Cursor :=
  ⟨serial, address, t.turnsTaken serial address + 1⟩
    :: t.cursors.filter fun c => !c.isAt serial address

/-- Starts the probe that a loop has launched. One that would end after its deadline never does. -/
def startProbe (t : Timeline) (i : Nat) (l : CheckLoop (Handle ScriptedProbe))
    (deadline : Instant) : Timeline :=
  let address := l.endpoint.address
  let turn := l.probe.probe.turn (t.turnsTaken l.probe.serial address)
  let due := t.now + turn.delay.nanos
  let running := match ScriptedProbe.endOf? l.endpoint turn.act with
    | some ending => if due ≤ deadline then ⟨i, due, ending⟩ :: t.running else t.running
    | none => t.running
  { t with
    running := running
    cursors := t.takeTurn l.probe.serial address
    launches := ⟨t.now, l.probe.probe.name, address, deadline⟩ :: t.launches }

/-- Ends the probes that are due. -/
def endProbes (t : Timeline) : Timeline :=
  let (due, later) := t.running.partition fun r => decide (r.due ≤ t.now)
  { t with
    scheduler := due.foldl (fun s r => s.endProbe r.loop r.ending) t.scheduler
    running := later }

/-- The deadline of the probe that a step of a loop has launched. -/
def launched? (events : List LoopEvent) : Option Instant :=
  events.findSome? fun
    | .launched deadline => some deadline
    | _ => none

/-! ### Settling -/

/-- Lets a loop take its next step, and starts or drops its probe accordingly. -/
def stepLoop (t : Timeline) (i : Nat) : Option Timeline := do
  let t := t.endProbes
  let l ← t.scheduler.loops[i]?
  let p ← l.step t.scheduler.metrics t.now
  let s ← t.scheduler.stepLoop i
  let t := { t with scheduler := s }
  match launched? p.events with
  | some deadline => some (t.startProbe i l deadline)
  | none =>
    match p.loop.phase with
    | .probing _ => some t
    | _ => some { t with running := t.running.filter fun r => r.loop != i }

/-- Lets a loop take as many steps as it can, up to a number. -/
def runLoop (i : Nat) : Nat → Timeline → Timeline
  | 0, t => t
  | fuel + 1, t =>
    match t.stepLoop i with
    | some t => runLoop i fuel t
    | none => t

/-- No loop takes more steps than this within an instant. -/
def stepsPerInstant : Nat := 64

/-- Lets every loop take as many steps as it can. -/
def runLoops (t : Timeline) : Timeline :=
  (List.range t.scheduler.loops.length).foldl (fun t i => runLoop i stepsPerInstant t) t

/-- Lets the call at a place go on for up to a number of steps; whether it has returned. -/
def runCall (j : Nat) : Nat → ScriptedScheduler → ScriptedScheduler × Bool
  | 0, s => (s, false)
  | fuel + 1, s =>
    match s.stepCall j with
    | none => (s, false)
    | some s' => if s'.calls.length < s.calls.length then (s', true) else runCall j fuel s'

/-- Every call takes fewer steps than this. -/
def callSteps (s : ScriptedScheduler) : Nat :=
  s.loops.length + 16

/-- Lets the calls from a place on go on, one after another, `count` of them. -/
def runCalls (j : Nat) : Nat → ScriptedScheduler → ScriptedScheduler
  | 0, s => s
  | count + 1, s =>
    let (s, returned) := runCall j (callSteps s) s
    runCalls (if returned then j else j + 1) count s

/-- Runs loops and calls in turn, up to a number of rounds, until no call is left. -/
def settleRounds : Nat → Timeline → Timeline
  | 0, t => t.runLoops
  | rounds + 1, t =>
    let t := t.runLoops
    if t.scheduler.calls.isEmpty then t
    else
      let s := runCalls 0 t.scheduler.calls.length t.scheduler
      settleRounds rounds { t with scheduler := s }

/-- Runs everything that is due now. -/
def settle (t : Timeline) : Timeline :=
  settleRounds (t.scheduler.loops.length + 4 * t.scheduler.calls.length + 4) t

/-- Goes on with a scheduler that a call has acted on; the call goes on as far as it can alone. -/
def issue (t : Timeline) (s : ScriptedScheduler) : Timeline :=
  if t.scheduler.calls.length < s.calls.length then
    { t with scheduler := (runCall (s.calls.length - 1) (callSteps s) s).1 }
  else { t with scheduler := s }

/-! ### The clock -/

/-- The clock's unit. -/
def tick : Nat := 1000000

/-- The first instant of the clock that is not before another. -/
def roundUp (t : Instant) : Instant :=
  (t + (tick - 1)) / tick * tick

/-- The earlier of two instants of which one may be missing. -/
def earlier (a : Option Instant) (b : Instant) : Option Instant :=
  some (match a with
    | some a => min a b
    | none => b)

/-- The first instant after now at which something is due. -/
def nextDue? (t : Timeline) : Option Instant :=
  let dues := t.scheduler.loops.flatMap CheckLoop.dues ++ t.running.map Running.due
  ((dues.filter fun d => decide (t.now < d)).foldl earlier none).map roundUp

/-- Moves the clock and runs everything that is due then. -/
def moveTo (t : Timeline) (goal : Instant) : Timeline :=
  settle { t with scheduler := t.scheduler.passTo goal }

/-- Runs the clock to an instant, with at most `fuel` stops on the way. -/
def runTo (goal : Instant) : Nat → Timeline → Timeline
  | 0, t => t.moveTo goal
  | fuel + 1, t =>
    match t.nextDue? with
    | some d => if d ≤ goal then runTo goal fuel (t.moveTo d) else t.moveTo goal
    | none => t.moveTo goal

/-- Runs everything that is due now, and then the clock to an instant that is not past, with a stop
wherever something is due. -/
def runUntil (t : Timeline) (goal : Instant) : Timeline :=
  let t := t.settle
  if goal ≤ t.now then t else runTo goal ((goal - t.now) / tick + 1) t

/-- Moves the clock by a span at once, before anything else happens. -/
def skip (t : Timeline) (s : Span) : Timeline :=
  { t with scheduler := t.scheduler.passTo (t.now + s.nanos) }

/-- Runs the clock for a span. -/
def sleep (t : Timeline) (s : Span) : Timeline :=
  t.runUntil (t.now + s.nanos)

end Timeline

end HealthMonitor
