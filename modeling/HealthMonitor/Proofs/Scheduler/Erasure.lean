import HealthMonitor.Proofs.Scheduler.Journal
import HealthMonitor.Proofs.Scheduler.Touches
import HealthMonitor.Proofs.Sieve

/-!
# Runs from which all but one key is erased

`Scheduler.erased` is what is left of a run when everything that concerns other keys than one is
erased. A registration keeps the endpoints of the key, and is gone if it has none. A call that adds,
removes or updates an endpoint is gone if it names another key. So are the steps of the loops and
the calls in flight that are about other keys, and the ends of their probes. What stays names its
loop or its call in flight by another number, as the ones in front may be gone.

A call that names two keys is about both. `Scheduler.Solitary` says that no call is about a key and
another one.
-/

namespace HealthMonitor

/-! ### What is about a key -/

/-- A dependency with its endpoints of one key. -/
def Dependency.only (K : String) (d : Dependency) : Dependency :=
  { d with endpoints := d.endpoints.filter fun e => d.key e = K }

/-- What is registered in the place of a dependency, if it has an endpoint of the key. One that is
refused stays as it is. -/
def Dependency.erased? (K : String) (d : Dependency) : Option Dependency :=
  if (d.only K).endpoints = [] then none
  else
    match d.validate with
    | .ok _ => some (d.only K)
    | .error _ => some d

namespace CheckLoop

variable {P : Type}

/-- The key of the endpoint that a loop checks. -/
def key (l : CheckLoop P) : String :=
  l.dependency.key l.endpoint

/-- A loop of a dependency with its endpoints of one key. -/
def only (K : String) (l : CheckLoop P) : CheckLoop P :=
  { l with dependency := l.dependency.only K }

/-- What is left of a loop: nothing, unless it is of the key. -/
def only? (K : String) (l : CheckLoop P) : Option (CheckLoop P) :=
  if l.key = K then some (l.only K) else none

end CheckLoop

/-- What is left of a registration that waits for the start. -/
def Registration.only? {P : Type} (K : String) (r : Registration P) : Option (Registration P) :=
  if (r.dependency.only K).endpoints = [] then none else some ⟨r.dependency.only K, r.probe⟩

/-- The number of a loop among those of a key, by the keys of all loops. -/
def lane? (K : String) (keys : List String) (i : Nat) : Option Nat :=
  if keys[i]? = some K then some ((keys.take i).count K) else none

/-- Whether the report of a call that retires loops is about a key. -/
def LogLine.isAbout (K : String) : LogLine → Bool
  | .endpointRemoved key | .endpointUpdated key _ => key = K
  | _ => false

/-- What is left of a loop that has been taken out of service. -/
def Retired.only? (K : String) (keys : List String) (r : Retired) : Option Retired :=
  (lane? K keys r.loop).map fun n => ⟨n, r.deleteSeries⟩

namespace Call

/-- What is left of a call in flight: a stop waits for loops of the key only, and one that retires
loops is gone unless it is about the key. -/
def only? (K : String) (keys : List String) : Call → Option Call
  | .stopping loops => some (.stopping (loops.filterMap (lane? K keys)))
  | .retiring left stage report =>
    if report.isAbout K then some (.retiring (left.filterMap (Retired.only? K keys)) stage report)
    else none

/-- Whether the next step of a call in flight is about a key. The return of a stop is about
all. -/
def isFor (K : String) (keys : List String) : Call → Bool
  | .stopping [] => true
  | .stopping (i :: _) => (lane? K keys i).isSome
  | .retiring _ _ report => report.isAbout K

end Call

namespace Scheduler

variable {P : Type}

/-- The keys of the loops. -/
def keys (s : Scheduler P) : List String :=
  s.loops.map CheckLoop.key

end Scheduler

namespace Move

variable {P : Type}

/-- The keys that a call to add, remove or update an endpoint concerns. -/
def concerns (s : Scheduler P) : Move P → List String
  | .add name _ _ e _ => [Endpoint.keyOf name e.host e.port]
  | .remove name host port => [Endpoint.keyOf name host port]
  | .update name host port e _ =>
    let key := Endpoint.keyOf name host port
    key :: ((s.slots.get? key).bind (s.loops[·]?)).toList.map fun l => l.dependency.key e
  | _ => []

/-- What is left of a move. -/
def only? (K : String) (s : Scheduler P) : Move P → Option (Move P)
  | .register d probe => (d.erased? K).map (.register · probe)
  | .start outer => some (.start outer)
  | .stop => some .stop
  | .add name kind critical e probe =>
    if Endpoint.keyOf name e.host e.port = K then some (.add name kind critical e probe) else none
  | .remove name host port =>
    if Endpoint.keyOf name host port = K then some (.remove name host port) else none
  | .update name host port e probe =>
    if Endpoint.keyOf name host port = K then some (.update name host port e probe) else none
  | .loop i => (lane? K s.keys i).map .loop
  | .call j => do
    let c ← s.calls[j]?
    -- a step that a call cannot take is no step of any call
    let _ ← s.advance c
    if c.isFor K s.keys then some (.call (Sieve.rank (Call.only? K s.keys) s.calls j)) else none
  | .ending i how => (lane? K s.keys i).map (.ending · how)
  | .clock t => some (.clock t)

end Move

namespace Scheduler

variable {P : Type}

/-- What is left of a run. -/
def erased (K : String) (past : List (Scheduler P × Move P)) : List (Move P) :=
  past.filterMap fun p => p.2.only? K p.1

/-- No call concerns a key and another one. -/
def Solitary (K : String) (past : List (Scheduler P × Move P)) : Prop :=
  ∀ p ∈ past, K ∈ p.2.concerns p.1 → ∀ key ∈ p.2.concerns p.1, key = K

instance (K : String) (past : List (Scheduler P × Move P)) : Decidable (Solitary K past) :=
  inferInstanceAs (Decidable (∀ p ∈ past, _ → ∀ key ∈ _, _))

/-- The probe that a move launches for a key: when, and with which deadline. -/
def launched? (K : String) (s : Scheduler P) : Move P → Option (Instant × Instant)
  | .loop i => do
    let l ← s.loops[i]?
    let q ← if l.key = K then l.step s.metrics s.now else none
    (q.events.findSome? LoopEvent.deadline?).map (s.now, ·)
  | _ => none

/-- The probes that a run has launched for a key. -/
def launchedFor (K : String) (past : List (Scheduler P × Move P)) : List (Instant × Instant) :=
  past.filterMap fun p => p.1.launched? K p.2

theorem erased_concat (K : String) (past : List (Scheduler P × Move P)) (s : Scheduler P)
    (m : Move P) : erased K (past ++ [(s, m)]) = erased K past ++ (m.only? K s).toList := by
  rw [erased, List.filterMap_append, erased]
  cases h : m.only? K s <;> simp [h]

theorem launchedFor_concat (K : String) (past : List (Scheduler P × Move P)) (s : Scheduler P)
    (m : Move P) :
    launchedFor K (past ++ [(s, m)]) = launchedFor K past ++ (s.launched? K m).toList := by
  rw [launchedFor, List.filterMap_append, launchedFor]
  cases h : s.launched? K m <;> simp [h]

end Scheduler

end HealthMonitor
