import HealthMonitor.Proofs.Checks
import HealthMonitor.Scheduler.Basic
import Mathlib.Data.List.Induction

/-!
# Runs of a scheduler

A `Move` is one thing that can happen to a scheduler: a client makes a call, a loop or a call in
flight takes a step, a probe ends, or time passes. `Scheduler.run` carries out a list of moves, so
the lists of moves are exactly the interleavings of calls, loops and probes; a refused call and a
step that cannot be taken change nothing.

`Scheduler.Effect` says once what each move can do, and `Scheduler.effect_move` that it does no
more. Every invariant of runs is proved by cases on an effect, and `Scheduler.run_invariant` lifts
it from one move to all runs. Facts about the past of a run are told of its `Scheduler.trace`, the
moves with the states they found.
-/

namespace HealthMonitor

open Checks

/-- One thing that can happen to a scheduler. -/
inductive Move (P : Type) where
  | register (d : Dependency) (probe : P)
  | start (outer : Option Instant)
  | stop
  | add (name : String) (kind : Kind) (critical : Bool) (e : Endpoint) (probe : P)
  | remove (name host : String) (port : UInt16)
  | update (name oldHost : String) (oldPort : UInt16) (e : Endpoint) (probe : P)
  /-- The loop with a number takes its next step. -/
  | loop (i : Nat)
  /-- The call in flight at a place takes its next step. -/
  | call (j : Nat)
  /-- The probe that a loop has launched ends. -/
  | ending (i : Nat) (ending : ProbeEnd)
  | clock (t : Instant)

/-- Whether a move is a call of a client. -/
def Move.isCall {P : Type} : Move P → Bool
  | .loop _ | .call _ | .ending .. | .clock _ => false
  | _ => true

/-- Whether a move is a call that changes which endpoints are served while running. -/
def Move.isDynamic {P : Type} : Move P → Bool
  | .add .. | .remove .. | .update .. => true
  | _ => false

namespace Scheduler

variable {P : Type}

/-- What becomes of a scheduler by a call; one that is refused changes nothing. -/
def taking (s : Scheduler P) : Except SchedulerError (Scheduler P) → Scheduler P
  | .ok s' => s'
  | .error _ => s

/-- Carries out a move. -/
def move (s : Scheduler P) : Move P → Scheduler P
  | .register d probe => s.taking (s.register d probe)
  | .start outer => s.taking (s.start outer)
  | .stop => s.stop
  | .add name kind critical e probe => s.taking (s.addEndpoint name kind critical e probe)
  | .remove name host port => s.taking (s.removeEndpoint name host port)
  | .update name oldHost oldPort e probe =>
    s.taking (s.updateEndpoint name oldHost oldPort e probe)
  | .loop i => (s.stepLoop i).getD s
  | .call j => (s.stepCall j).getD s
  | .ending i ending => s.endProbe i ending
  | .clock t => s.passTo t

/-- Carries out moves one after another. -/
def run (s : Scheduler P) (ms : List (Move P)) : Scheduler P :=
  ms.foldl move s

/-- The moves of a run, each with the state that it found. -/
def trace (s : Scheduler P) : List (Move P) → List (Scheduler P × Move P)
  | [] => []
  | m :: ms => (s, m) :: (s.move m).trace ms

@[simp] theorem run_nil (s : Scheduler P) : s.run [] = s := rfl

@[simp] theorem run_cons (s : Scheduler P) (m : Move P) (ms : List (Move P)) :
    s.run (m :: ms) = (s.move m).run ms := rfl

theorem run_append (s : Scheduler P) (ms ns : List (Move P)) :
    s.run (ms ++ ns) = (s.run ms).run ns :=
  List.foldl_append

theorem run_concat (s : Scheduler P) (ms : List (Move P)) (m : Move P) :
    s.run (ms ++ [m]) = (s.run ms).move m :=
  run_append s ms [m]

/-- The past of a longer run is that of its first part, and then that of the rest from where this
has led. -/
theorem trace_append (s : Scheduler P) (ms ns : List (Move P)) :
    s.trace (ms ++ ns) = s.trace ms ++ (s.run ms).trace ns := by
  induction ms generalizing s with
  | nil => rfl
  | cons m ms ih => simp only [List.cons_append, trace, run_cons, ih]

theorem trace_concat (s : Scheduler P) (ms : List (Move P)) (m : Move P) :
    s.trace (ms ++ [m]) = s.trace ms ++ [(s.run ms, m)] :=
  trace_append s ms [m]

/-- A move of a run has found the state that the moves before it lead to. -/
theorem exists_of_mem_trace {s₀ s : Scheduler P} {ms : List (Move P)} {m : Move P}
    (h : (s, m) ∈ s₀.trace ms) : ∃ ns, ns ++ [m] <+: ms ∧ s = s₀.run ns := by
  induction ms generalizing s₀ with
  | nil => cases h
  | cons n ms ih =>
    rcases List.mem_cons.mp h with h | h
    · cases h
      exact ⟨[], List.prefix_append [m] ms, rfl⟩
    · obtain ⟨ns, hns, hs⟩ := ih h
      exact ⟨n :: ns, List.cons_prefix_cons.mpr ⟨rfl, hns⟩, hs⟩

/-- What has happened early in a run has happened in the run. -/
theorem trace_subset {ns ms : List (Move P)} (h : ns <+: ms) (s : Scheduler P) :
    s.trace ns ⊆ s.trace ms := by
  obtain ⟨rest, rfl⟩ := h
  rw [trace_append]
  exact List.subset_append_left ..

/-- Each move of a run stands in its past, with the state that the moves before it have led to. -/
theorem mem_trace {s : Scheduler P} {ns ms : List (Move P)} {m : Move P} (h : ns ++ [m] <+: ms) :
    (s.run ns, m) ∈ s.trace ms :=
  trace_subset h s (by simp [trace_concat])

/-- What holds at first and is kept by every move holds of every state of a run, and of its
past. -/
theorem run_invariant {motive : List (Scheduler P × Move P) → Scheduler P → Prop}
    {s : Scheduler P} (start : motive [] s)
    (step : ∀ past s m, motive past s → motive (past ++ [(s, m)]) (s.move m))
    (ms : List (Move P)) : motive (s.trace ms) (s.run ms) := by
  induction ms using List.reverseRecOn with
  | nil => exact start
  | append_singleton ms m ih =>
    rw [trace_concat, run_concat]
    exact step _ _ m ih

/-! ### What a move can do -/

/-- What the next step of a call makes of a scheduler, and what is left of the call; nothing is
left of one that returns. -/
inductive Advance (s : Scheduler P) : Call → Scheduler P → Option Call → Prop where
  | joinedByStop {i : Nat} {rest : List Nat} (done : s.isDone i = true) :
      Advance s (.stopping (i :: rest)) (s.noticeEnd i) (some (.stopping rest))
  | stopReturned (alone : s.retiring = 0) : Advance s (.stopping []) (s.log .stopped) none
  | signalled {r : Retired} {rest : List Retired} {report : LogLine} :
      Advance s (.retiring (r :: rest) .signal report) (s.modifyLoop r.loop CheckLoop.signal)
        (some (.retiring (r :: rest) .join report))
  | joined {r : Retired} {rest : List Retired} {report : LogLine}
      (done : s.isDone r.loop = true) :
      Advance s (.retiring (r :: rest) .join report) (s.noticeEnd r.loop)
        (some (.retiring (r :: rest) (.clear r.removals) report))
  | cleared {r : Retired} {rest : List Retired} {a : Exporter.Removal}
      {left : List Exporter.Removal} {report : LogLine} :
      Advance s (.retiring (r :: rest) (.clear (a :: left)) report) (s.clearPlace r.loop a).1
        (some (.retiring (r :: rest) (.clear ((s.clearPlace r.loop a).2 ++ left)) report))
  | retired {r : Retired} {rest : List Retired} {report : LogLine} :
      Advance s (.retiring (r :: rest) (.clear []) report) s
        (some (.retiring rest .signal report))
  | returned {stage : RetireStage} {report : LogLine} :
      Advance s (.retiring [] stage report)
        (({ s with retiring := s.retiring - 1 }).log report) none

/-- The calls in flight after the one at a place has taken a step. -/
def callsAfter (calls : List Call) (j : Nat) : Option Call → List Call
  | some c => calls.set j c
  | none => calls.eraseIdx j

/-- What a move makes of a scheduler. -/
inductive Effect (s : Scheduler P) : Move P → Scheduler P → Prop where
  /-- The call was refused, or there was nothing to do. -/
  | none (m : Move P) : Effect s m s
  | registered {d : Dependency} (probe : P) (idle : s.lifecycle = .idle)
      (valid : d.validate = .ok ()) :
      Effect s (.register d probe) { s with pending := s.pending ++ [⟨d, probe⟩] }
  | started (outer : Option Instant) (idle : s.lifecycle = .idle) :
      Effect s (.start outer) (s.begun outer)
  | told (running : s.lifecycle = .running) :
      Effect s .stop
        { s.tell s.serving with
          lifecycle := .stopped
          calls := s.calls ++ [.stopping s.serving] }
  | added {d : Dependency} {name : String} {kind : Kind} {critical : Bool} {e : Endpoint}
      {probe : P} (dependency : d = s.dynamicDependency name kind critical e)
      (running : s.lifecycle = .running) (valid : d.validate = .ok ())
      (free : s.slots.get? (d.key e) = none) :
      Effect s (.add name kind critical e probe)
        ((s.serve (d.key e) (CheckLoop.spawn d e probe none)).log (.endpointAdded (d.key e)))
  | removed {key name host : String} {port : UInt16} {i : Nat}
      (named : key = Endpoint.keyOf name host port) (running : s.lifecycle = .running)
      (served : s.slots.get? key = some i) :
      Effect s (.remove name host port)
        (({ s with slots := s.slots.erase key }).retire [⟨i, true⟩] (.endpointRemoved key))
  | replaced {key name host : String} {port : UInt16} {i : Nat} {old : CheckLoop P} {e : Endpoint}
      {probe : P} (named : key = Endpoint.keyOf name host port)
      (running : s.lifecycle = .running) (labels : Dependency.checkLabels e.labels = .ok ())
      (served : s.slots.get? key = some i) (loop : s.loops[i]? = some old) :
      Effect s (.update name host port e probe) (s.replaced key i old e probe)
  | stepped {i : Nat} {l : CheckLoop P} {p : CheckLoop.Progress P} (loop : s.loops[i]? = some l)
      (step : l.step s.metrics s.now = some p) :
      Effect s (.loop i)
        ({ s with loops := s.loops.set i p.loop, metrics := p.metrics }.note (some i) p.events)
  | called {j : Nat} {c : Call} {s' : Scheduler P} {after : Option Call}
      (call : s.calls[j]? = some c) (advance : Advance s c s' after) :
      Effect s (.call j) { s' with calls := callsAfter s.calls j after }
  | ended (i : Nat) (ending : ProbeEnd) : Effect s (.ending i ending) (s.endProbe i ending)
  | passed (t : Instant) : Effect s (.clock t) (s.passTo t)

/-! ### What a call that is not refused does -/

/-- A registration that is accepted comes before the start and is valid, and all it does is to wait
for the start. -/
theorem register_ok {s s' : Scheduler P} {d : Dependency} {probe : P}
    (h : s.register d probe = .ok s') :
    s.lifecycle = .idle ∧ d.validate = .ok () ∧
      s' = { s with pending := s.pending ++ [⟨d, probe⟩] } := by
  unfold register at h
  obtain ⟨⟨⟩, hd, h⟩ := bind_eq_ok_iff.mp h
  split at h
  next => cases h
  next idle =>
    cases h
    exact ⟨Decidable.not_not.mp idle, mapError_eq_ok_iff.mp hd, rfl⟩

/-- A start that is accepted is the first. -/
theorem start_ok {s s' : Scheduler P} {outer : Option Instant} (h : s.start outer = .ok s') :
    s.lifecycle = .idle ∧ s' = s.begun outer := by
  unfold start at h
  split at h
  next => cases h
  next idle =>
    cases h
    exact ⟨Decidable.not_not.mp idle, rfl⟩

/-- An addition that is accepted finds the scheduler running and the dependency valid. It does
nothing if the key is served already; else it serves the key with a new loop, which no outer
deadline ends. -/
theorem addEndpoint_ok {s s' : Scheduler P} {name : String} {kind : Kind} {critical : Bool}
    {e : Endpoint} {probe : P} (h : s.addEndpoint name kind critical e probe = .ok s') :
    s.lifecycle = .running ∧ (s.dynamicDependency name kind critical e).validate = .ok () ∧
      (s' = s ∨
        s.slots.get? ((s.dynamicDependency name kind critical e).key e) = none ∧
        s' = (s.serve ((s.dynamicDependency name kind critical e).key e)
            (CheckLoop.spawn (s.dynamicDependency name kind critical e) e probe none)).log
          (.endpointAdded ((s.dynamicDependency name kind critical e).key e))) := by
  unfold addEndpoint at h
  obtain ⟨⟨⟩, hd, h⟩ := bind_eq_ok_iff.mp h
  split at h
  next => cases h
  next running =>
    refine ⟨Decidable.not_not.mp running, mapError_eq_ok_iff.mp hd, ?_⟩
    dsimp only at h
    split at h
    next =>
      cases h
      exact Or.inl rfl
    next free =>
      cases h
      exact Or.inr ⟨by simpa [Dictionary.contains] using free, rfl⟩

/-- A removal that is accepted finds the scheduler running. It does nothing about a key that is not
served; else it gives up the key, and a call in flight retires the loop and clears its series. -/
theorem removeEndpoint_ok {s s' : Scheduler P} {name host : String} {port : UInt16}
    (h : s.removeEndpoint name host port = .ok s') :
    s.lifecycle = .running ∧
      (s' = s ∨ ∃ i, s.slots.get? (Endpoint.keyOf name host port) = some i ∧
        s' = ({ s with slots := s.slots.erase (Endpoint.keyOf name host port) }).retire [⟨i, true⟩]
          (.endpointRemoved (Endpoint.keyOf name host port))) := by
  unfold removeEndpoint at h
  split at h
  next => cases h
  next running =>
    refine ⟨Decidable.not_not.mp running, ?_⟩
    dsimp only at h
    split at h
    next =>
      cases h
      exact Or.inl rfl
    next i served =>
      cases h
      exact Or.inr ⟨i, served, rfl⟩

/-- An update that is accepted finds the scheduler running, the labels of the new endpoint valid and
the old key served by a loop, which is replaced. Nothing else of the new endpoint is looked at. -/
theorem updateEndpoint_ok {s s' : Scheduler P} {name oldHost : String} {oldPort : UInt16}
    {e : Endpoint} {probe : P} (h : s.updateEndpoint name oldHost oldPort e probe = .ok s') :
    s.lifecycle = .running ∧ Dependency.checkLabels e.labels = .ok () ∧
      ∃ i old, s.slots.get? (Endpoint.keyOf name oldHost oldPort) = some i ∧
        s.loops[i]? = some old ∧
        s' = s.replaced (Endpoint.keyOf name oldHost oldPort) i old e probe := by
  unfold updateEndpoint at h
  obtain ⟨⟨⟩, hl, h⟩ := bind_eq_ok_iff.mp h
  split at h
  next => cases h
  next running =>
    dsimp only at h
    split at h
    next i served =>
      split at h
      next old loop =>
        cases h
        exact ⟨Decidable.not_not.mp running, mapError_eq_ok_iff.mp hl, i, old, served, loop, rfl⟩
      next => cases h
    next => cases h

/-! ### Every move has such an effect -/

/-- A call has the effect that it has when it is not refused. -/
private theorem effect_taking {s : Scheduler P} {m : Move P}
    {result : Except SchedulerError (Scheduler P)}
    (h : ∀ s', result = .ok s' → Effect s m s') : Effect s m (s.taking result) := by
  cases result with
  | error e => exact .none m
  | ok s' => exact h s' rfl

/-- Only a scheduler that is running is stopped. -/
private theorem effect_stop (s : Scheduler P) : Effect s .stop s.stop := by
  unfold stop
  split
  next running => exact .told running
  next => exact .none _

/-- A loop that is not there or cannot step changes nothing. -/
private theorem effect_stepLoop (s : Scheduler P) (i : Nat) :
    Effect s (.loop i) ((s.stepLoop i).getD s) := by
  unfold stepLoop
  cases hl : s.loops[i]? with
  | none => exact .none _
  | some l =>
    cases hp : l.step s.metrics s.now with
    | none => simpa [hp] using Effect.none (s := s) (.loop i)
    | some p => simpa [hp] using Effect.stepped hl hp

/-- That a loop has ended is noticed in the journal only. -/
theorem noticeEnd_eq (s : Scheduler P) (i : Nat) :
    ∃ journal, s.noticeEnd i = { s with journal := journal } := by
  unfold noticeEnd
  split
  · exact ⟨_, rfl⟩
  · exact ⟨s.journal, rfl⟩

/-- What is left behind of an endpoint is cleared in the exporter only. -/
theorem clearPlace_eq (s : Scheduler P) (i : Nat) (a : Exporter.Removal) :
    (s.clearPlace i a).1 = { s with metrics := (s.clearPlace i a).1.metrics } := by
  unfold clearPlace
  split <;> rfl

/-- A step of a call changes nothing but the loops, the metrics, the journal and the count of calls
that retire loops; it leaves the calls in flight to `Scheduler.stepCall`. -/
theorem advance_eq {s s' : Scheduler P} {c : Call} {after : Option Call}
    (h : Advance s c s' after) : ∃ loops metrics journal retiring,
      s' = { s with loops := loops, metrics := metrics, journal := journal,
                    retiring := retiring } := by
  cases h with
  | joinedByStop | joined =>
    obtain ⟨journal, h⟩ := noticeEnd_eq s _
    exact ⟨s.loops, s.metrics, journal, s.retiring, h⟩
  | cleared => exact ⟨s.loops, _, s.journal, s.retiring, clearPlace_eq s _ _⟩
  | stopReturned | signalled | returned => exact ⟨_, _, _, _, rfl⟩
  | retired => exact ⟨s.loops, s.metrics, s.journal, s.retiring, rfl⟩

/-- A call that steps is not in the way of the others. -/
theorem advance_calls {s s' : Scheduler P} {c : Call} {after : Option Call}
    (h : Advance s c s' after) : s'.calls = s.calls := by
  obtain ⟨_, _, _, _, rfl⟩ := advance_eq h
  rfl

/-- A step that a call can take is one of those listed, by the stage that the call has reached. -/
theorem advance_some {s s' : Scheduler P} {c : Call} {after : Option Call}
    (h : s.advance c = some (s', after)) : Advance s c s' after := by
  unfold advance at h
  split at h
  next i rest =>
    split at h
    next done =>
      cases h
      exact .joinedByStop done
    next => cases h
  next =>
    split at h
    next alone =>
      cases h
      exact .stopReturned alone
    next => cases h
  next =>
    cases h
    exact .signalled
  next =>
    split at h
    next done =>
      cases h
      exact .joined done
    next => cases h
  next =>
    cases h
    exact .cleared
  next =>
    cases h
    exact .retired
  next =>
    cases h
    exact .returned

/-- A call that is not in flight or has to wait changes nothing. -/
private theorem effect_stepCall (s : Scheduler P) (j : Nat) :
    Effect s (.call j) ((s.stepCall j).getD s) := by
  cases hc : s.calls[j]? with
  | none => simpa [stepCall, hc] using Effect.none (s := s) (.call j)
  | some c =>
    cases ha : s.advance c with
    | none => simpa [stepCall, hc, ha] using Effect.none (s := s) (.call j)
    | some result =>
      obtain ⟨s', after⟩ := result
      have h := Effect.called hc (advance_some ha)
      cases after <;> simpa [stepCall, hc, ha, callsAfter, advance_calls (advance_some ha)] using h

/-- What a loop makes of the scheduler by the next step it can take. -/
theorem move_loop {s : Scheduler P} {i : Nat} {l : CheckLoop P} {q : CheckLoop.Progress P}
    (hl : s.loops[i]? = some l) (hq : l.step s.metrics s.now = some q) :
    s.move (.loop i) =
      ({ s with loops := s.loops.set i q.loop, metrics := q.metrics }.note (some i) q.events) := by
  simp [move, stepLoop, hl, hq]

/-- After its step a loop stands in its place as the step has left it. -/
theorem getElem?_move_loop {s : Scheduler P} {i : Nat} {l : CheckLoop P}
    {q : CheckLoop.Progress P} (hl : s.loops[i]? = some l)
    (hq : l.step s.metrics s.now = some q) : (s.move (.loop i)).loops[i]? = some q.loop := by
  rw [move_loop hl hq, note]
  exact List.getElem?_set_self (List.getElem?_eq_some_iff.mp hl).1

/-- A step that a loop cannot take changes nothing. -/
theorem move_loop_of_stuck {s : Scheduler P} {i : Nat} {l : CheckLoop P}
    (hl : s.loops[i]? = some l) (hq : l.step s.metrics s.now = none) : s.move (.loop i) = s := by
  simp [move, stepLoop, hl, hq]

/-- What a call in flight makes of the scheduler by the next step it can take. -/
theorem move_call {s s' : Scheduler P} {j : Nat} {c : Call} {after : Option Call}
    (hc : s.calls[j]? = some c) (ha : s.advance c = some (s', after)) :
    s.move (.call j) = { s' with calls := callsAfter s.calls j after } := by
  have hcalls := advance_calls (advance_some ha)
  cases after <;> simp [move, stepCall, hc, ha, callsAfter, hcalls]

/-- A call that does not return with its step stays in its place. -/
theorem getElem?_move_call {s s' : Scheduler P} {j : Nat} {c c' : Call}
    (hc : s.calls[j]? = some c) (ha : s.advance c = some (s', some c')) :
    (s.move (.call j)).calls[j]? = some c' := by
  rw [move_call hc ha]
  exact List.getElem?_set_self (List.getElem?_eq_some_iff.mp hc).1

/-- A step that a call in flight cannot take changes nothing. -/
theorem move_call_of_waiting {s : Scheduler P} {j : Nat}
    (h : ∀ c, s.calls[j]? = some c → s.advance c = none) : s.move (.call j) = s := by
  cases hc : s.calls[j]? with
  | none => simp [move, stepCall, hc]
  | some c => simp [move, stepCall, hc, h c hc]

/-- A registration waits for the start if it is valid and comes before it. -/
theorem move_register (s : Scheduler P) (d : Dependency) (probe : P) :
    s.move (.register d probe) =
      if d.validate = .ok () ∧ s.lifecycle = .idle then
        { s with pending := s.pending ++ [⟨d, probe⟩] }
      else s := by
  rw [move, register]
  cases d.validate with
  | error e => rfl
  | ok u => cases s.lifecycle <;> rfl

/-- Only the first start does anything. -/
theorem move_start (s : Scheduler P) (outer : Option Instant) :
    s.move (.start outer) = if s.lifecycle = .idle then s.begun outer else s := by
  rw [move, start]
  cases s.lifecycle <;> rfl

/-- An endpoint that is added gets a loop of its own unless its key is served already. -/
theorem move_add (s : Scheduler P) {name : String} {kind : Kind} {critical : Bool} {e : Endpoint}
    {probe : P} {d : Dependency} (hd : d = s.dynamicDependency name kind critical e) :
    s.move (.add name kind critical e probe) =
      if d.validate = .ok () ∧ s.lifecycle = .running ∧ s.slots.contains (d.key e) = false then
        (s.serve (d.key e) (CheckLoop.spawn d e probe none)).log (.endpointAdded (d.key e))
      else s := by
  subst hd
  rw [move, addEndpoint]
  cases (s.dynamicDependency name kind critical e).validate with
  | error e => rfl
  | ok u =>
    dsimp only
    cases s.slots.contains ((s.dynamicDependency name kind critical e).key e)
    all_goals cases s.lifecycle <;> rfl

/-- The key of an endpoint that is removed is free at once; its loop is left to a call in flight. -/
theorem move_remove (s : Scheduler P) (name host : String) (port : UInt16) :
    s.move (.remove name host port) =
      if s.lifecycle = .running then
        (s.slots.get? (Endpoint.keyOf name host port)).elim s fun i =>
          ({ s with slots := s.slots.erase (Endpoint.keyOf name host port) }).retire [⟨i, true⟩]
            (.endpointRemoved (Endpoint.keyOf name host port))
      else s := by
  rw [move, removeEndpoint]
  dsimp only
  cases s.slots.get? (Endpoint.keyOf name host port)
  all_goals cases s.lifecycle <;> rfl

/-- An update replaces the loop that serves the old key if the labels of the new endpoint are valid
and the scheduler runs. -/
theorem move_update (s : Scheduler P) (name host : String) (port : UInt16) (e : Endpoint)
    (probe : P) :
    s.move (.update name host port e probe) =
      if Dependency.checkLabels e.labels = .ok () ∧ s.lifecycle = .running then
        (s.slots.get? (Endpoint.keyOf name host port)).elim s fun i =>
          s.loops[i]?.elim s fun old =>
            s.replaced (Endpoint.keyOf name host port) i old e probe
      else s := by
  rw [move, updateEndpoint]
  cases Dependency.checkLabels e.labels with
  | error e => rfl
  | ok u =>
    dsimp only
    cases s.slots.get? (Endpoint.keyOf name host port) with
    | none => cases s.lifecycle <;> rfl
    | some i =>
      dsimp only [Option.elim_some]
      cases s.loops[i]?
      all_goals cases s.lifecycle <;> rfl

/-- **Every move has one of the effects.** -/
theorem effect_move (s : Scheduler P) (m : Move P) : Effect s m (s.move m) := by
  cases m with
  | register d probe =>
    refine effect_taking fun s' h => ?_
    obtain ⟨idle, valid, rfl⟩ := register_ok h
    exact .registered probe idle valid
  | start outer =>
    refine effect_taking fun s' h => ?_
    obtain ⟨idle, rfl⟩ := start_ok h
    exact .started outer idle
  | stop => exact effect_stop s
  | add name kind critical e probe =>
    refine effect_taking fun s' h => ?_
    obtain ⟨running, valid, rfl | ⟨free, rfl⟩⟩ := addEndpoint_ok h
    · exact .none _
    · exact .added rfl running valid free
  | remove name host port =>
    refine effect_taking fun s' h => ?_
    obtain ⟨running, rfl | ⟨i, served, rfl⟩⟩ := removeEndpoint_ok h
    · exact .none _
    · exact .removed rfl running served
  | update name oldHost oldPort e probe =>
    refine effect_taking fun s' h => ?_
    obtain ⟨running, labels, i, old, served, loop, rfl⟩ := updateEndpoint_ok h
    exact .replaced rfl running labels served loop
  | loop i => exact effect_stepLoop s i
  | call j => exact effect_stepCall s j
  | ending i ending => exact .ended i ending
  | clock t => exact .passed t

/-! ### One check -/

/-- The moves by which a loop launches its probe, the probe ends, and the loop publishes. -/
def checking (i : Nat) (o : Outcome) : List (Move P) :=
  .loop i :: .ending i (.returned o) :: List.replicate 7 (.loop i)

end Scheduler

/-- The standard plan without an initial delay. -/
def CheckPlan.prompt : CheckPlan :=
  { standard with initialDelay := Span.zero }

/-- A database with some endpoints, which are checked at once. -/
def database (endpoints : List Endpoint) : Dependency where
  name := "db"
  kind := .tcp
  critical := some true
  endpoints := endpoints
  plan := CheckPlan.prompt

/-- The scheduler of an instance before anything has happened. -/
abbrev Scheduler.newApp : Scheduler Unit :=
  fresh (Exporter.fresh "app" []) CheckPlan.prompt

end HealthMonitor
