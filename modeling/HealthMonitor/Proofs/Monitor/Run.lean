import HealthMonitor.Monitor.Basic
import HealthMonitor.Proofs.Scheduler.Run

/-!
# Runs of a monitor

A `MonitorMove` is one thing that can happen to a monitor: a client makes a call, or the scheduler
does work of its own. `Monitor.run` carries out a list of moves; a refused call changes nothing.

`Monitor.Effect` says once what each move can do, and `Monitor.effect_move` that it does no more.
Whatever it does, the scheduler of a monitor changes by moves of the scheduler only
(`Monitor.Effect.scheduler`), so what every move of a scheduler keeps is kept by the scheduler of a
monitor as well (`Monitor.run_scheduler`).
-/

namespace HealthMonitor

open Checks

/-- One thing that can happen to a monitor. -/
inductive MonitorMove (P : Type) where
  | start (outer : Option Instant)
  | stop
  | add (name : String) (kind : Kind) (critical : Bool) (e : Endpoint) (settings : ProbeSettings)
  | addWith (name : String) (critical : Bool) (e : Endpoint) (probe : P)
  | remove (name host : String) (port : UInt16)
  | update (name oldHost : String) (oldPort : UInt16) (e : Endpoint)
  /-- The scheduler does work of its own: no client has called it. -/
  | work (m : Move (Handle P)) (own : m.isCall = false)

namespace MonitorMove

variable {P : Type}

/-- The move of the scheduler that a move of a monitor is passed on as, if it is only that. -/
def passed? : MonitorMove P → Option (Move (Handle P))
  | .start outer => some (.start outer)
  | .stop => some .stop
  | .remove name host port => some (.remove name host port)
  | .work m _ => some m
  | .add .. | .addWith .. | .update .. => none

end MonitorMove

namespace Monitor

variable {P : Type} [HasKind P]

/-- What becomes of a monitor by a call; one that is refused changes nothing. -/
def taking {ε : Type} (m : Monitor P) : Except ε (Monitor P) → Monitor P
  | .ok m' => m'
  | .error _ => m

/-- Carries out a move. -/
def move (m : Monitor P) : MonitorMove P → Monitor P
  | .start outer => m.taking (m.start outer)
  | .stop => m.stop
  | .add name kind critical e settings => m.taking (m.addEndpoint name kind critical e settings)
  | .addWith name critical e probe => m.taking (m.addEndpointWith name critical e probe)
  | .remove name host port => m.taking (m.removeEndpoint name host port)
  | .update name oldHost oldPort e => m.taking (m.updateEndpoint name oldHost oldPort e)
  | .work w _ => { m with scheduler := m.scheduler.move w }

/-- Carries out moves one after another. -/
def run (m : Monitor P) (ms : List (MonitorMove P)) : Monitor P :=
  ms.foldl move m

@[simp] theorem run_nil (m : Monitor P) : m.run [] = m := rfl

theorem run_concat (m : Monitor P) (ms : List (MonitorMove P)) (a : MonitorMove P) :
    m.run (ms ++ [a]) = (m.run ms).move a :=
  List.foldl_append

/-! ### What a move can do -/

/-- The probe of an addition, with a number of its own. -/
def handleOf (m : Monitor P) (probe : P) : Handle P := ⟨m.used, probe⟩

/-- A monitor that has put a probe to use for a dependency, and has a scheduler that did so. -/
def puttingToUse (m : Monitor P) (name : String) (handle : Handle P) (s : Scheduler (Handle P)) :
    Monitor P :=
  { m with
    scheduler := s
    probes := m.probes.insertNew name handle
    used := m.used + 1 }

/-- What a move makes of a monitor. -/
inductive Effect (m : Monitor P) : MonitorMove P → Monitor P → Prop where
  /-- The call was refused. -/
  | none (a : MonitorMove P) : Effect m a m
  | passed {a : MonitorMove P} {w : Move (Handle P)} (call : a.passed? = some w) :
      Effect m a { m with scheduler := m.scheduler.move w }
  | added {name : String} {kind : Kind} {critical : Bool} {e : Endpoint} {settings : ProbeSettings}
      {probe : P} {s : Scheduler (Handle P)}
      (created : m.registry.create kind settings = .ok probe)
      (accepted :
        m.scheduler.addEndpoint name (kindOf probe) critical e (m.handleOf probe) = .ok s) :
      Effect m (.add name kind critical e settings) (m.puttingToUse name (m.handleOf probe) s)
  | addedWith {name : String} {critical : Bool} {e : Endpoint} {probe : P}
      {s : Scheduler (Handle P)}
      (accepted :
        m.scheduler.addEndpoint name (kindOf probe) critical e (m.handleOf probe) = .ok s) :
      Effect m (.addWith name critical e probe) (m.puttingToUse name (m.handleOf probe) s)
  | updated {name host : String} {port : UInt16} {e : Endpoint} {handle : Handle P}
      {s : Scheduler (Handle P)} (remembered : m.probes.get? name = some handle)
      (accepted : m.scheduler.updateEndpoint name host port e handle = .ok s) :
      Effect m (.update name host port e) { m with scheduler := s }

/-! ### What a call that is not refused does -/

theorem addEndpointWith_ok {m m' : Monitor P} {name : String} {critical : Bool} {e : Endpoint}
    {probe : P} (h : m.addEndpointWith name critical e probe = .ok m') :
    ∃ s, m.scheduler.addEndpoint name (kindOf probe) critical e (m.handleOf probe) = .ok s ∧
      m' = m.puttingToUse name (m.handleOf probe) s := by
  obtain ⟨s, hs, h⟩ := bind_eq_ok_iff.mp h
  exact ⟨s, hs, (Except.ok.inj h).symm⟩

theorem addEndpoint_ok {m m' : Monitor P} {name : String} {kind : Kind} {critical : Bool}
    {e : Endpoint} {settings : ProbeSettings}
    (h : m.addEndpoint name kind critical e settings = .ok m') :
    ∃ probe, m.registry.create kind settings = .ok probe ∧
      m.addEndpointWith name critical e probe = .ok m' := by
  obtain ⟨-, h⟩ := andThen_eq_ok_iff.mp h
  obtain ⟨probe, created, h⟩ := bind_eq_ok_iff.mp h
  exact ⟨probe, mapError_eq_ok_iff.mp created, mapError_eq_ok_iff.mp h⟩

omit [HasKind P] in
theorem updateEndpoint_ok {m m' : Monitor P} {name host : String} {port : UInt16} {e : Endpoint}
    (h : m.updateEndpoint name host port e = .ok m') :
    ∃ handle s, m.probes.get? name = some handle ∧
      m.scheduler.updateEndpoint name host port e handle = .ok s ∧
      m' = { m with scheduler := s } := by
  unfold updateEndpoint at h
  split at h
  next => cases h
  next handle remembered =>
    obtain ⟨s, hs, rfl⟩ := map_eq_ok_iff.mp h
    exact ⟨handle, s, remembered, hs, rfl⟩

/-! ### Every move has such an effect -/

private theorem effect_taking {ε : Type} {m : Monitor P} {a : MonitorMove P}
    {result : Except ε (Monitor P)} (h : ∀ m', result = .ok m' → Effect m a m') :
    Effect m a (m.taking result) := by
  cases result with
  | error e => exact .none a
  | ok m' => exact h m' rfl

/-- A call that a scheduler takes is a move of it; one that it refuses changes neither. -/
private theorem effect_passed {m : Monitor P} {a : MonitorMove P} {w : Move (Handle P)}
    (call : a.passed? = some w) {result : Except SchedulerError (Scheduler (Handle P))}
    (h : m.scheduler.move w = m.scheduler.taking result) :
    Effect m a (m.taking (result.map fun s => { m with scheduler := s })) := by
  refine effect_taking fun m' hm' => ?_
  obtain ⟨s, rfl, rfl⟩ := map_eq_ok_iff.mp hm'
  exact (show m.scheduler.move w = s from h) ▸ .passed call

/-- **Every move has one of the effects.** -/
theorem effect_move (m : Monitor P) (a : MonitorMove P) : Effect m a (m.move a) := by
  cases a with
  | start outer => exact effect_passed rfl rfl
  | stop => exact .passed (w := .stop) rfl
  | add name kind critical e settings =>
    refine effect_taking fun m' h => ?_
    obtain ⟨probe, created, h⟩ := addEndpoint_ok h
    obtain ⟨s, accepted, rfl⟩ := addEndpointWith_ok h
    exact .added created accepted
  | addWith name critical e probe =>
    refine effect_taking fun m' h => ?_
    obtain ⟨s, accepted, rfl⟩ := addEndpointWith_ok h
    exact .addedWith accepted
  | remove name host port => exact effect_passed rfl rfl
  | update name host port e =>
    refine effect_taking fun m' h => ?_
    obtain ⟨handle, s, remembered, accepted, rfl⟩ := updateEndpoint_ok h
    exact .updated remembered accepted
  | work w own => exact .passed rfl

/-! ### The scheduler of a monitor -/

/-- **A monitor changes its scheduler by moves of the scheduler only.** -/
theorem Effect.scheduler {m m' : Monitor P} {a : MonitorMove P} (h : Effect m a m') :
    m'.scheduler = m.scheduler ∨ ∃ w, m'.scheduler = m.scheduler.move w := by
  cases h with
  | none => exact Or.inl rfl
  | passed => exact Or.inr ⟨_, rfl⟩
  | @added name kind critical e settings probe s _ accepted =>
    refine Or.inr ⟨.add name (kindOf probe) critical e (m.handleOf probe), ?_⟩
    rw [Scheduler.move, accepted]
    rfl
  | @addedWith name critical e probe s accepted =>
    refine Or.inr ⟨.add name (kindOf probe) critical e (m.handleOf probe), ?_⟩
    rw [Scheduler.move, accepted]
    rfl
  | @updated name host port e handle s _ accepted =>
    refine Or.inr ⟨.update name host port e handle, ?_⟩
    rw [Scheduler.move, accepted]
    rfl

/-- What every move of a scheduler keeps holds of the scheduler of a monitor throughout a run. -/
theorem run_scheduler {motive : Scheduler (Handle P) → Prop} {m : Monitor P}
    (start : motive m.scheduler) (step : ∀ s w, motive s → motive (s.move w))
    (ms : List (MonitorMove P)) : motive (m.run ms).scheduler := by
  induction ms using List.reverseRecOn with
  | nil => exact start
  | append_singleton ms a ih =>
    rw [run_concat]
    rcases (effect_move (m.run ms) a).scheduler with h | ⟨w, h⟩
    · exact h ▸ ih
    · exact h ▸ step _ w ih

end Monitor

end HealthMonitor
