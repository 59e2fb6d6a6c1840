import HealthMonitor.Proofs.Scheduler.Deadline
import HealthMonitor.Proofs.Scheduler.Keys

/-!
# Refused calls of a scheduler

A call does not answer with a state: it changes the state that is there, piece by piece, and may
find only underway that it has to refuse. `Move.steps` are the calls of a scheduler in this form,
with their checks and changes in the order in which they happen: an update gives the old key up
before it knows whether anything serves it, and a removal counts itself as a retirement before it
knows whether there is anything to retire.

`Scheduler.run_steps` is that every call ends as its answer says: one that is taken leaves the state
of the answer, and one that is refused leaves the state that it found, every part of it.
-/

namespace HealthMonitor

/-! ### Calls that change a state underway -/

/-- A check that a call makes before it goes on with what has passed. -/
def requiring {ε σ α : Type} (result : Except ε α) : EStateM ε σ α := fun s =>
  match result with
  | .ok a => .ok a s
  | .error e => .error e s

/-- How a call ends at a state that answers it so: a refusal leaves the state as it is. -/
def settled {ε σ : Type} (s : σ) : Except ε σ → EStateM.Result ε σ Unit
  | .ok s' => .ok () s'
  | .error e => .error e s

section Settled

variable {ε σ α : Type} {s : σ}

/-- A call that begins with a check ends as its answer says if what follows does. -/
theorem run_requiring {result : Except ε α} {f : α → EStateM ε σ Unit} {g : α → Except ε σ}
    (h : ∀ a, (f a).run s = settled s (g a)) :
    (requiring result >>= f).run s = settled s (result >>= g) := by
  cases result with
  | error e => rfl
  | ok a => exact h a

/-- So does one that begins with a guard. -/
theorem run_guard {p : Prop} [Decidable p] {e : ε} {f : Unit → EStateM ε σ Unit}
    {g : Unit → Except ε σ} {x : EStateM ε σ Unit} {y : Except ε σ} (h : x.run s = settled s y) :
    (if p then throw e >>= f else x).run s = settled s (if p then throw e >>= g else y) := by
  split
  · rfl
  · exact h

/-- To look at the state changes nothing. -/
theorem run_looking {f : σ → EStateM ε σ Unit} {y : Except ε σ} (h : (f s).run s = settled s y) :
    (get >>= f).run s = settled s y := h

/-- What is known of the end of such a call is known of its answer. -/
theorem answer_of_settled {call : EStateM ε σ Unit} {answer : Except ε σ}
    (h : call.run s = settled s answer) (s' : σ) :
    (∀ e, call.run s = .error e s' → answer = .error e ∧ s' = s) ∧
      (call.run s = .ok () s' → answer = .ok s') := by
  rw [h]
  cases answer with
  | error e => exact ⟨fun _ he => by cases he; exact ⟨rfl, rfl⟩, nofun⟩
  | ok s => exact ⟨nofun, fun hs => by cases hs; rfl⟩

end Settled

/-- To erase a key that is not there changes nothing. -/
theorem Dictionary.erase_of_get?_none {α : Type} {d : Dictionary String α} {key : String}
    (h : d.get? key = none) : d.erase key = d := by
  refine Dictionary.ext_get? fun k => ?_
  rw [Dictionary.get?_erase]
  split
  next hk => rw [hk, h]
  next => rfl

/-- A lifecycle goes forward: it stays as it is or takes the next step. -/
inductive Lifecycle.Forward : Lifecycle → Lifecycle → Prop where
  | stays (c : Lifecycle) : Forward c c
  | starts : Forward .idle .running
  | stops : Forward .running .stopped

namespace Scheduler

variable {P : Type}

/-- Registers a dependency. -/
def registering (d : Dependency) (probe : P) : EStateM SchedulerError (Scheduler P) Unit := do
  requiring (d.validate.mapError SchedulerError.config)
  if (← get).lifecycle ≠ .idle then throw .alreadyStarted
  modify fun s => { s with pending := s.pending ++ [⟨d, probe⟩] }

/-- Starts: the lifecycle first, then the registrations are taken, then their loops are spawned. -/
def starting (outer : Option Instant) : EStateM SchedulerError (Scheduler P) Unit := do
  if (← get).lifecycle ≠ .idle then throw .alreadyStarted
  modify fun s => { s with lifecycle := .running }
  let loops := (← get).startLoops outer
  modify fun s => { s with pending := [] }
  modify fun s => s.serveAll loops.entries
  modify fun s => s.log (.started loops.size)

/-- Adds an endpoint. -/
def adding (name : String) (kind : Kind) (critical : Bool) (e : Endpoint) (probe : P) :
    EStateM SchedulerError (Scheduler P) Unit := do
  let d := (← get).dynamicDependency name kind critical e
  requiring (d.validate.mapError SchedulerError.config)
  if (← get).lifecycle ≠ .running then throw .notStarted
  if (← get).slots.contains (d.key e) then return
  modify fun s => s.serve (d.key e) (CheckLoop.spawn d e probe none)
  modify fun s => s.log (.endpointAdded (d.key e))

/-- Takes an endpoint out of service. -/
def removing (name host : String) (port : UInt16) : EStateM SchedulerError (Scheduler P) Unit := do
  if (← get).lifecycle ≠ .running then throw .notStarted
  let key := Endpoint.keyOf name host port
  let slot := (← get).slots.get? key
  modify fun s => { s with slots := s.slots.erase key }
  modify fun s => { s with retiring := s.retiring + 1 }
  match slot with
  | none => modify fun s => { s with retiring := s.retiring - 1 }
  | some i =>
    modify fun s =>
      { s with calls := s.calls ++ [.retiring [⟨i, true⟩] .signal (.endpointRemoved key)] }

/-- Puts an endpoint in the place of one in service. -/
def updating (name oldHost : String) (oldPort : UInt16) (e : Endpoint) (probe : P) :
    EStateM SchedulerError (Scheduler P) Unit := do
  requiring ((Dependency.checkLabels e.labels).mapError SchedulerError.config)
  let oldKey := Endpoint.keyOf name oldHost oldPort
  if (← get).lifecycle ≠ .running then throw .notStarted
  let slot := (← get).slots.get? oldKey
  modify fun s => { s with slots := s.slots.erase oldKey }
  let some i := slot | throw (.endpointNotFound oldKey)
  let some old := (← get).loops[i]? | throw (.endpointNotFound oldKey)
  let d := { old.dependency with endpoints := [e] }
  let makingWay := i :: ((← get).slots.get? (d.key e)).toList
  let retired := makingWay.flatMap ((← get).retiredFor d e)
  modify fun s => s.serve (d.key e) (CheckLoop.spawn d e probe none)
  modify fun s => s.retire retired (.endpointUpdated oldKey (d.key e))

/-- What a scheduler answers to a move; only a call can be refused. -/
def answer (s : Scheduler P) : Move P → Except SchedulerError (Scheduler P)
  | .register d probe => s.register d probe
  | .start outer => s.start outer
  | .add name kind critical e probe => s.addEndpoint name kind critical e probe
  | .remove name host port => s.removeEndpoint name host port
  | .update name oldHost oldPort e probe => s.updateEndpoint name oldHost oldPort e probe
  | m => .ok (s.move m)

/-- A move is what becomes of the scheduler by its answer. -/
theorem move_eq_taking (s : Scheduler P) (m : Move P) : s.move m = s.taking (s.answer m) := by
  cases m <;> rfl

end Scheduler

/-- A move, carried out piece by piece. -/
def Move.steps {P : Type} : Move P → EStateM SchedulerError (Scheduler P) Unit
  | .register d probe => Scheduler.registering d probe
  | .start outer => Scheduler.starting outer
  | .add name kind critical e probe => Scheduler.adding name kind critical e probe
  | .remove name host port => Scheduler.removing name host port
  | .update name oldHost oldPort e probe => Scheduler.updating name oldHost oldPort e probe
  | m => modify fun s => s.move m

namespace Scheduler

variable {P : Type}

theorem run_registering (s : Scheduler P) (d : Dependency) (probe : P) :
    (registering d probe).run s = settled s (s.register d probe) :=
  run_requiring fun _ => run_looking (run_guard rfl)

theorem run_starting (s : Scheduler P) (outer : Option Instant) :
    (starting outer).run s = settled s (s.start outer) :=
  run_looking (run_guard rfl)

theorem run_adding (s : Scheduler P) (name : String) (kind : Kind) (critical : Bool) (e : Endpoint)
    (probe : P) :
    (adding name kind critical e probe).run s =
      settled s (s.addEndpoint name kind critical e probe) := by
  refine run_looking (run_requiring fun _ => run_looking (run_guard (run_looking ?_)))
  dsimp only
  split
  · rfl
  · rfl

/-- To give up a key that nothing serves changes nothing. -/
theorem erased_of_free {s : Scheduler P} {key : String} (free : s.slots.get? key = none) :
    { s with slots := s.slots.erase key } = s := by
  rw [Dictionary.erase_of_get?_none free]

theorem run_removing (s : Scheduler P) (name host : String) (port : UInt16) :
    (removing name host port).run s = settled s (s.removeEndpoint name host port) := by
  refine run_looking (run_guard (run_looking ?_))
  rw [EStateM.run_bind, EStateM.run_modify]
  dsimp only
  cases hslot : s.slots.get? (Endpoint.keyOf name host port) with
  | none =>
    -- the retirement that was counted is counted back
    rw [erased_of_free hslot]
    rfl
  | some i => rfl

theorem run_updating {s : Scheduler P} (keyed : s.Keyed) (name oldHost : String) (oldPort : UInt16)
    (e : Endpoint) (probe : P) :
    (updating name oldHost oldPort e probe).run s =
      settled s (s.updateEndpoint name oldHost oldPort e probe) := by
  refine run_requiring fun _ => run_looking (run_guard (run_looking ?_))
  rw [EStateM.run_bind, EStateM.run_modify]
  dsimp only
  cases hslot : s.slots.get? (Endpoint.keyOf name oldHost oldPort) with
  | none =>
    rw [erased_of_free hslot]
    rfl
  | some i =>
    -- what serves a key is there, so nothing is refused any more
    obtain ⟨old, hold, -⟩ := keyed _ i hslot
    simp only [EStateM.run_bind, EStateM.run_get, hold]
    rfl

/-- **A call ends as its answer says.** If it is refused, it leaves the state that it found. -/
theorem run_steps {s : Scheduler P} (keyed : s.Keyed) (m : Move P) :
    m.steps.run s = settled s (s.answer m) := by
  cases m with
  | register d probe => exact run_registering s d probe
  | start outer => exact run_starting s outer
  | add name kind critical e probe => exact run_adding s name kind critical e probe
  | remove name host port => exact run_removing s name host port
  | update name oldHost oldPort e probe => exact run_updating keyed name oldHost oldPort e probe
  | stop | loop | call | ending | clock => rfl

theorem lifecycle_forward (s : Scheduler P) (m : Move P) :
    s.lifecycle.Forward (s.move m).lifecycle := by
  rcases lifecycle_of_effect (effect_move s m) with h | ⟨idle, h⟩ | ⟨running, h⟩
  · exact h ▸ .stays _
  · exact idle ▸ h ▸ .starts
  · exact running ▸ h ▸ .stops

end Scheduler

end HealthMonitor
