import HealthMonitor.Monitor.Basic
import HealthMonitor.Probe.BuiltIn

/-!
# Live monitors

A monitor of built-in probes at work on a network. A probe that is launched is carried out at
once, so at every instant `Monitor.settle` brings all loops as far as they get; `Monitor.nextDue?`
says when there is something to do again.
-/

namespace HealthMonitor.Monitor

/-- Carries out the probe of a loop, if it has launched one that has not ended. -/
def carryOut (n : Network BuiltIn.Peer) (i : Nat) (s : Scheduler (Handle BuiltIn)) :
    Scheduler (Handle BuiltIn) :=
  match s.loops[i]? with
  | some l => s.endProbe i (.returned (BuiltIn.check n l.endpoint l.probe.probe))
  | none => s

/-- Lets a loop take as many steps as it can, up to a number. -/
def runLoop (n : Network BuiltIn.Peer) (i : Nat) :
    Nat → Scheduler (Handle BuiltIn) → Scheduler (Handle BuiltIn)
  | 0, s => s
  | fuel + 1, s =>
    match s.stepLoop i with
    | some s => runLoop n i fuel (carryOut n i s)
    | none => s

/-- No loop takes more steps than this within an instant. -/
def stepsAtOnce : Nat := 32

/-- Moves the clock of a monitor and lets all its loops do what they can. -/
def settle (n : Network BuiltIn.Peer) (now : Instant) (m : Monitor BuiltIn) : Monitor BuiltIn :=
  let s := m.scheduler.passTo now
  { m with scheduler :=
      (List.range s.loops.length).foldl (fun s i => runLoop n i stepsAtOnce s) s }

/-- The first instant after now at which there is something to do. -/
def nextDue? (m : Monitor BuiltIn) : Option Instant :=
  ((m.scheduler.loops.flatMap CheckLoop.dues).filter fun d => decide (m.scheduler.now < d)).min?

/-- The lines logged since the journal had some length, the earliest first. -/
def linesSince (m : Monitor BuiltIn) (told : Nat) : List LogLine :=
  let journal := m.scheduler.journal
  (journal.take (journal.length - told)).reverse.filterMap fun h => match h.event with
    | .logged line => some line
    | _ => none

end HealthMonitor.Monitor
