import HealthMonitor.Proofs.Monitor.ProbeKinds
import HealthMonitor.Proofs.Scheduler.Refusals

/-!
# Refused calls

A call of a monitor lets its scheduler carry out a call of its own, and remembers a probe once that
has been taken. `MonitorMove.steps` are the calls of a monitor in the form of `Move.steps`: what the
scheduler has changed before it refuses stays changed (`Monitor.onScheduler`). Nothing has been, so
a refused call leaves the monitor as it was as well (`refusals_change_nothing`).
-/

namespace HealthMonitor

namespace Monitor

variable {P : Type}

/-- Lets the scheduler of a monitor carry out a call. Whatever that does to it is done, also if it
refuses. -/
def onScheduler {ε : Type} (call : EStateM ε (Scheduler (Handle P)) Unit) :
    EStateM ε (Monitor P) Unit := fun m =>
  match call.run m.scheduler with
  | .ok () s => .ok () { m with scheduler := s }
  | .error e s => .error e { m with scheduler := s }

/-- Puts a probe to use for an endpoint. -/
def addingWith [HasKind P] (name : String) (critical : Bool) (e : Endpoint) (probe : P) :
    EStateM SchedulerError (Monitor P) Unit := do
  let handle := (← get).handleOf probe
  onScheduler (Scheduler.adding name (kindOf handle) critical e handle)
  modify fun m => { m with probes := m.probes.insertNew name handle, used := m.used + 1 }

/-- Adds an endpoint with a probe from the registry. -/
def adding [HasKind P] (name : String) (kind : Kind) (critical : Bool) (e : Endpoint)
    (settings : ProbeSettings) : EStateM BuildError (Monitor P) Unit := do
  requiring (settings.checkAuth.mapError BuildError.config)
  let probe ← requiring (((← get).registry.create kind settings).mapError BuildError.config)
  (addingWith name critical e probe).adaptExcept BuildError.scheduler

/-- Moves an endpoint, with the probe of its dependency. -/
def updating (name oldHost : String) (oldPort : UInt16) (e : Endpoint) :
    EStateM SchedulerError (Monitor P) Unit := do
  match (← get).probes.get? name with
  | none => throw (.endpointNotFound (Endpoint.keyOf name oldHost oldPort))
  | some handle => onScheduler (Scheduler.updating name oldHost oldPort e handle)

/-- What a monitor answers to a move; only a call can be refused. -/
def answer [HasKind P] (m : Monitor P) : MonitorMove P → Except BuildError (Monitor P)
  | .start outer => (m.start outer).mapError .scheduler
  | .add name kind critical e settings => m.addEndpoint name kind critical e settings
  | .addWith name critical e probe =>
    (m.addEndpointWith name critical e probe).mapError .scheduler
  | .remove name host port => (m.removeEndpoint name host port).mapError .scheduler
  | .update name oldHost oldPort e => (m.updateEndpoint name oldHost oldPort e).mapError .scheduler
  | a => .ok (m.move a)

theorem move_eq_taking [HasKind P] (m : Monitor P) (a : MonitorMove P) :
    m.move a = m.taking (m.answer a) := by
  have reworded (result : Except SchedulerError (Monitor P)) :
      m.taking (result.mapError BuildError.scheduler) = m.taking result := by
    cases result <;> rfl
  cases a with
  | start | addWith | remove | update => exact (reworded _).symm
  | add | stop | work => rfl

end Monitor

/-- A move of a monitor, carried out piece by piece. -/
def MonitorMove.steps {P : Type} [HasKind P] : MonitorMove P → EStateM BuildError (Monitor P) Unit
  | .start outer => (Monitor.onScheduler (Scheduler.starting outer)).adaptExcept .scheduler
  | .add name kind critical e settings => Monitor.adding name kind critical e settings
  | .addWith name critical e probe =>
    (Monitor.addingWith name critical e probe).adaptExcept .scheduler
  | .remove name host port =>
    (Monitor.onScheduler (Scheduler.removing name host port)).adaptExcept .scheduler
  | .update name oldHost oldPort e =>
    (Monitor.updating name oldHost oldPort e).adaptExcept .scheduler
  | a => modify fun m => m.move a

section Settled

variable {ε ε' σ : Type} {s : σ}

/-- Another wording of the error changes no end of a call. -/
theorem run_adaptExcept_settled {f : ε → ε'} {call : EStateM ε σ Unit} {answer : Except ε σ}
    (h : call.run s = settled s answer) :
    (call.adaptExcept f).run s = settled s (answer.mapError f) := by
  rw [EStateM.run_adaptExcept, h]
  cases answer <;> rfl

end Settled

namespace Monitor

variable {P : Type}

/-- A call of the scheduler that ends as its answer says does so for the monitor. -/
theorem run_onScheduler {ε : Type} {m : Monitor P} {call : EStateM ε (Scheduler (Handle P)) Unit}
    {answer : Except ε (Scheduler (Handle P))}
    (h : call.run m.scheduler = settled m.scheduler answer) :
    (onScheduler call).run m = settled m (answer.map fun s => { m with scheduler := s }) := by
  change (match call.run m.scheduler with | .ok () s => _ | .error e s => _) = _
  rw [h]
  cases answer <;> rfl

/-- What a monitor does once its scheduler has taken a call is done to the scheduler after it. -/
theorem run_onScheduler_then {ε : Type} {m : Monitor P}
    {call : EStateM ε (Scheduler (Handle P)) Unit} {answer : Except ε (Scheduler (Handle P))}
    (h : call.run m.scheduler = settled m.scheduler answer)
    {f : Unit → EStateM ε (Monitor P) Unit} {g : Scheduler (Handle P) → Except ε (Monitor P)}
    (taken : ∀ s, (f ()).run { m with scheduler := s } = settled m (g s)) :
    (onScheduler call >>= f).run m = settled m (answer >>= g) := by
  rw [EStateM.run_bind, run_onScheduler h]
  cases answer with
  | error e => rfl
  | ok s => exact taken s

variable [HasKind P]

theorem run_addingWith (m : Monitor P) (name : String) (critical : Bool) (e : Endpoint)
    (probe : P) :
    (addingWith name critical e probe).run m =
      settled m (m.addEndpointWith name critical e probe) := by
  exact run_looking (run_onScheduler_then
    (Scheduler.run_adding m.scheduler name _ critical e (m.handleOf probe)) fun _ => rfl)

theorem run_adding (m : Monitor P) (name : String) (kind : Kind) (critical : Bool) (e : Endpoint)
    (settings : ProbeSettings) :
    (adding name kind critical e settings).run m =
      settled m (m.addEndpoint name kind critical e settings) :=
  run_requiring fun _ => run_looking (run_requiring fun probe =>
    run_adaptExcept_settled (run_addingWith m name critical e probe))

omit [HasKind P] in
theorem run_updating {m : Monitor P} (keyed : m.scheduler.Keyed) (name oldHost : String)
    (oldPort : UInt16) (e : Endpoint) :
    (updating name oldHost oldPort e).run m =
      settled m (m.updateEndpoint name oldHost oldPort e) := by
  refine run_looking ?_
  unfold updateEndpoint
  cases m.probes.get? name with
  | none => rfl
  | some handle =>
    exact run_onScheduler (Scheduler.run_updating keyed name oldHost oldPort e handle)

/-- A call of a monitor ends as its answer says. -/
theorem run_steps {m : Monitor P} (keyed : m.scheduler.Keyed) (a : MonitorMove P) :
    a.steps.run m = settled m (m.answer a) := by
  cases a with
  | start outer =>
    exact run_adaptExcept_settled (run_onScheduler (Scheduler.run_starting m.scheduler outer))
  | add name kind critical e settings => exact run_adding m name kind critical e settings
  | addWith name critical e probe =>
    exact run_adaptExcept_settled (run_addingWith m name critical e probe)
  | remove name host port =>
    exact run_adaptExcept_settled
      (run_onScheduler (Scheduler.run_removing m.scheduler name host port))
  | update name oldHost oldPort e =>
    exact run_adaptExcept_settled (run_updating keyed name oldHost oldPort e)
  | stop | work => rfl

theorem keyed_run_of_built {b : Blueprint P} {m : Monitor P} (built : b.build.result = .ok m)
    (ms : List (MonitorMove P)) : (m.run ms).scheduler.Keyed := by
  refine run_scheduler (motive := Scheduler.Keyed) ?_
    (fun s w keyed => keyed.move (Scheduler.effect_move s w)) ms
  obtain ⟨name, x, rs, -, rfl⟩ := Blueprint.build_ok built
  exact Scheduler.keyed_run x b.addedPlan (Blueprint.registrations rs)

theorem lifecycle_forward (m : Monitor P) (a : MonitorMove P) :
    m.scheduler.lifecycle.Forward (m.move a).scheduler.lifecycle := by
  rcases (effect_move m a).scheduler with h | ⟨w, h⟩
  · exact h ▸ .stays _
  · exact h ▸ m.scheduler.lifecycle_forward w

end Monitor

/-- **A refused call changes nothing.** In every state that a scheduler or a monitor can come to, a
call that ends with an error has answered just that error and has left everything as it was: the
lifecycle, the registrations, the keys, the loops with their signals and states, the count of
retirements, the probes and the series. A call that is taken ends in the state of its answer, and
takes the lifecycle forward if it changes it. -/
theorem refusals_change_nothing {P Q : Type} [HasKind Q] :
    (∀ (x : Exporter) (defaults : CheckPlan) (ms : List (Move P)) (a : Move P)
      (s' : Scheduler P),
      let s := (Scheduler.fresh x defaults).run ms
      (∀ e, a.steps.run s = .error e s' → s.answer a = .error e ∧ s' = s) ∧
        (a.steps.run s = .ok () s' → s.answer a = .ok s' ∧ s.lifecycle.Forward s'.lifecycle)) ∧
    ∀ (b : Blueprint Q) (built : Monitor Q) (ms : List (MonitorMove Q)) (a : MonitorMove Q)
      (m' : Monitor Q), b.build.result = .ok built →
      let m := built.run ms
      (∀ e, a.steps.run m = .error e m' → m.answer a = .error e ∧ m' = m) ∧
        (a.steps.run m = .ok () m' → m.answer a = .ok m' ∧
          m.scheduler.lifecycle.Forward m'.scheduler.lifecycle) := by
  constructor
  · intro x defaults ms a s' s
    have hanswer := answer_of_settled
      (Scheduler.run_steps (Scheduler.keyed_run x defaults ms) a) s'
    refine ⟨hanswer.1, fun taken => ⟨hanswer.2 taken, ?_⟩⟩
    have hforward := s.lifecycle_forward a
    rwa [s.move_eq_taking, hanswer.2 taken] at hforward
  · intro b built ms a m' hbuilt m
    have hanswer := answer_of_settled
      (Monitor.run_steps (Monitor.keyed_run_of_built hbuilt ms) a) m'
    refine ⟨hanswer.1, fun taken => ⟨hanswer.2 taken, ?_⟩⟩
    have hforward := m.lifecycle_forward a
    rwa [m.move_eq_taking, hanswer.2 taken] at hforward

/-- An update of an endpoint that is not there is refused, by a scheduler and by a monitor, after
the key has been given up. -/
theorem unknown_update_refused :
    (∃ s', (Move.update "db" "h" 1 (Endpoint.plain "i" 1) ()).steps.run
        (Scheduler.newApp.run [.start none]) = .error (.endpointNotFound "db:h:1") s' ∧
      s' = Scheduler.newApp.run [.start none]) ∧
    ∃ m m', Monitor.cacheApp.build.result = .ok m ∧
      (MonitorMove.update "cache" "h" 1 (Endpoint.plain "i" 1)).steps.run (m.run [.start none]) =
        .error (.scheduler (.endpointNotFound "cache:h:1")) m' ∧
      m' = m.run [.start none] :=
  ⟨⟨_, rfl, (((refusals_change_nothing (Q := BuiltIn)).1 _ _ [.start none]
      (.update "db" "h" 1 (Endpoint.plain "i" 1) ()) _).1 _ rfl).2⟩,
    _, _, rfl, rfl, (((refusals_change_nothing (P := Unit)).2 Monitor.cacheApp _ [.start none]
      (.update "cache" "h" 1 (Endpoint.plain "i" 1)) _ rfl).1 _ rfl).2⟩

end HealthMonitor
