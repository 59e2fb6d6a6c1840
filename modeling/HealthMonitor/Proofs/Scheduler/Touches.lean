import HealthMonitor.Proofs.Metrics.Changes
import HealthMonitor.Proofs.Scheduler.Clearing

/-!
# What a run does to the exporter

A move touches the exporter at most once: the step of a loop that writes to the next place of its
publication, or the step of a call that clears a place for a loop that is over. `Scheduler.touch?`
names the touch of a move, with the loop it is about, and the exporter after a run is what the
touches of the run, in order, make of the exporter before it (`metrics_run`).
-/

namespace HealthMonitor

/-- The change by which a publishing loop writes to its next place, unless that is its own state or
breaks it down. -/
def CheckLoop.writing? {P : Type} (l : CheckLoop P) (x : Exporter) : Option Exporter.Change :=
  match l.phase with
  | .publishing p =>
    match p.left with
    | .latency :: _ => if x.latencyUsable then some (.latency p.latency) else none
    | .status :: _ => some (.status p.verdict.category)
    | .detail :: _ => some (.detail p.verdict.detail)
    | .health :: _ => some (.health (l.state.tracker.healthy.getD false))
    | .state :: _ | [] => none
  | _ => none

namespace CheckLoop

variable {P : Type}

/-- A loop writes to the exporter only while it publishes. -/
theorem writing?_of_not_publishing {l : CheckLoop P} (h : l.isPublishing = false) (x : Exporter) :
    l.writing? x = none := by
  unfold isPublishing at h
  unfold writing?
  split
  next p hp => simp [hp] at h
  next => rfl

/-- The step of a loop changes the exporter by what the loop is about to write. -/
theorem Stepped.metrics {l : CheckLoop P} {x : Exporter} {now : Instant} {q : Progress P}
    (h : Stepped l x now q) :
    q.metrics = (l.writing? x).elim x (x.apply (x.labelValues l.dependency l.endpoint)) := by
  cases h with
  | ended busy => rw [writing?_of_not_publishing busy]; rfl
  | delayed due spawned =>
    rw [writing?_of_not_publishing (by simp [isPublishing, spawned])]
    rfl
  | launched nextTick resting =>
    rw [writing?_of_not_publishing (not_publishing_of_resting resting)]
    rfl
  | completed lines probing =>
    rw [writing?_of_not_publishing (by simp [isPublishing, probing])]
    rfl
  | @wrote p place rest q publishing next write =>
    cases place with
    | latency =>
      rw [write?, Exporter.observeLatency?_eq] at write
      split at write
      next usable =>
        cases write
        simp [writing?, publishing, next, usable, moveTo]
      next => cases write
    | status | detail | state | health =>
      cases write
      simp [writing?, publishing, next, moveTo, Exporter.setStatus_eq, Exporter.setDetail_eq,
        Exporter.setHealth_eq]
  | @broke p place rest publishing next write =>
    cases place with
    | latency =>
      rw [write?, Exporter.observeLatency?_eq] at write
      split at write
      next => cases write
      next unusable => simp [writing?, publishing, next, unusable, moveTo]
    | status | detail | state | health => cases write
  | rested due publishing last => simp [writing?, publishing, last]

/-- A loop never clears a place; that is for the calls that take it out of service. -/
theorem writing?_ne_cleared {l : CheckLoop P} {x : Exporter} {c : Exporter.Change}
    (h : l.writing? x = some c) (place : Exporter.Removal) : c ≠ .cleared place := by
  rintro rfl
  unfold writing? at h
  split at h
  next p =>
    split at h
    next => split at h <;> cases h
    all_goals cases h
  next => cases h

theorem alive_of_writing {l : CheckLoop P} {x : Exporter} {c : Exporter.Change}
    (h : l.writing? x = some c) : l.isDone = false := by
  cases hl : l.phase with
  | publishing p => exact alive_of_publishing hl
  | spawned | delaying | probing | waiting | finished | broken => simp [writing?, hl] at h

/-- A loop that is about to write can take a step. -/
theorem writing?_of_stuck {l : CheckLoop P} {x : Exporter} {now : Instant}
    (h : l.step x now = none) : l.writing? x = none := by
  refine writing?_of_not_publishing ?_ x
  rw [← Bool.not_eq_true, isPublishing_iff]
  rintro ⟨p, hp⟩
  simp [step, hp] at h

end CheckLoop

namespace Scheduler

variable {P : Type}

/-- What a move does to the exporter, if it does anything to it. -/
def touch? (s : Scheduler P) : Move P → Option Touch
  | .loop i => do
    let l ← s.loops[i]?
    let change ← l.writing? s.metrics
    some ⟨i, s.labelsOf l, change⟩
  | .call j => do
    let c ← s.calls[j]?
    let (i, place) ← c.clearing.head?
    let l ← s.loops[i]?
    some ⟨i, s.labelsOf l, .cleared place⟩
  | _ => none

/-- What the moves of a past have done to the exporter. -/
def touches (past : List (Scheduler P × Move P)) : List Touch :=
  past.filterMap fun p => p.1.touch? p.2

theorem touches_concat (past : List (Scheduler P × Move P)) (s : Scheduler P) (m : Move P) :
    touches (past ++ [(s, m)]) = touches past ++ (s.touch? m).toList := by
  rw [touches, List.filterMap_append, ← touches]
  cases h : s.touch? m <;> simp [h]

/-- The step of a loop changes the exporter by what the loop writes. -/
private theorem metrics_loop (s : Scheduler P) (i : Nat) :
    (s.move (.loop i)).metrics =
      (s.touch? (.loop i)).elim s.metrics fun t => s.metrics.apply t.labels t.change := by
  cases hl : s.loops[i]? with
  | none => simp [move, stepLoop, touch?, hl]
  | some l =>
    cases hp : l.step s.metrics s.now with
    | none => simp [move, stepLoop, touch?, hl, hp, CheckLoop.writing?_of_stuck hp]
    | some p =>
      have hmetrics := (CheckLoop.stepped_of_step hp).metrics
      cases hw : l.writing? s.metrics <;>
        simp [move, stepLoop, touch?, hl, hp, hw, hmetrics, note, labelsOf]

/-- The step of a call changes it by the place that it clears. -/
private theorem metrics_call (s : Scheduler P) (j : Nat) :
    (s.move (.call j)).metrics =
      (s.touch? (.call j)).elim s.metrics fun t => s.metrics.apply t.labels t.change := by
  by_cases hwait : ∀ c, s.calls[j]? = some c → s.advance c = none
  · rw [move_call_of_waiting hwait]
    cases hc : s.calls[j]? with
    | none => simp [touch?, hc]
    | some c => simp [touch?, hc, clearing_of_waiting (hwait c hc)]
  · push Not at hwait
    obtain ⟨c, hc, ha⟩ := hwait
    obtain ⟨⟨s', after⟩, ha⟩ := Option.ne_none_iff_exists'.mp ha
    rw [move_call hc ha]
    change s'.metrics = _
    -- of all the steps of calls only the clearing of a place is a touch
    cases advance_some ha with
    | joinedByStop | joined =>
      obtain ⟨journal, h⟩ := noticeEnd_eq s _
      rw [h]
      simp [touch?, hc, Call.clearing]
    | @cleared r rest a left report =>
      cases hl : s.loops[r.loop]? with
      | none => simp [touch?, hc, Call.clearing, hl, clearPlace]
      | some l => simp [touch?, hc, Call.clearing, hl, clearPlace, Exporter.apply]
    | stopReturned | signalled | retired | returned =>
      simp [touch?, hc, Call.clearing, log, note, modifyLoop]

/-- No other move changes the exporter. -/
private theorem metrics_of_effect {s s' : Scheduler P} {m : Move P} (h : Effect s m s')
    (notLoop : ∀ i, m ≠ .loop i) (notCall : ∀ j, m ≠ .call j) : s'.metrics = s.metrics := by
  cases h with
  | started =>
    rw [begun, serveAll_frame]
    rfl
  | told =>
    rw [tell_frame]
  | stepped => exact absurd rfl (notLoop _)
  | called => exact absurd rfl (notCall _)
  | none | registered | added | removed | replaced | ended | passed => rfl

/-- **A move changes the exporter by its touch alone.** -/
theorem metrics_move (s : Scheduler P) (m : Move P) :
    (s.move m).metrics =
      (s.touch? m).elim s.metrics fun t => s.metrics.apply t.labels t.change := by
  cases m with
  | loop i => exact metrics_loop s i
  | call j => exact metrics_call s j
  | register | start | stop | add | remove | update | ending | clock =>
    exact metrics_of_effect (effect_move s _) nofun nofun

/-- The exporter after a run is what the touches of the run have made of it. -/
theorem metrics_run (s : Scheduler P) (ms : List (Move P)) :
    (s.run ms).metrics = s.metrics.replay (touches (s.trace ms)) := by
  refine run_invariant (motive := fun past s' => s'.metrics = s.metrics.replay (touches past))
    rfl (fun past s' m h => ?_) ms
  rw [metrics_move, touches_concat, Exporter.replay_append, ← h]
  cases s'.touch? m <;> rfl

/-- A touch is about a loop and its label values: a write of the loop that is driven, or a clearing
that a call carries out. -/
theorem touch?_some {s : Scheduler P} {m : Move P} {t : Touch} (h : s.touch? m = some t) :
    ∃ l, s.loops[t.loop]? = some l ∧ t.labels = s.labelsOf l ∧
      (m = .loop t.loop ∧ l.writing? s.metrics = some t.change ∨
        ∃ place, t.change = .cleared place ∧ s.carriedOut m = [(t.loop, place)]) := by
  cases m with
  | loop i =>
    simp only [touch?, Option.bind_eq_bind, Option.bind_eq_some_iff, Option.some.injEq] at h
    obtain ⟨l, hl, change, hw, rfl⟩ := h
    exact ⟨l, hl, rfl, Or.inl ⟨rfl, hw⟩⟩
  | call j =>
    simp only [touch?, Option.bind_eq_bind, Option.bind_eq_some_iff, Option.some.injEq] at h
    obtain ⟨c, hc, ⟨i, place⟩, hplace, l, hl, rfl⟩ := h
    refine ⟨l, hl, rfl, Or.inr ⟨place, rfl, ?_⟩⟩
    rw [carriedOut_call hc]
    unfold Call.clearing at hplace ⊢
    split at hplace
    next => cases hplace; rfl
    next => cases hplace
  | register | start | stop | add | remove | update | ending | clock => cases h

/-- A deletion that is carried out is the touch of its move. -/
theorem touch?_of_carriedOut {s : Scheduler P} {m : Move P} {i : Nat} {place : Exporter.Removal}
    {l : CheckLoop P} (h : (i, place) ∈ s.carriedOut m) (hl : s.loops[i]? = some l) :
    s.touch? m = some ⟨i, s.labelsOf l, .cleared place⟩ := by
  obtain ⟨c, hc, hplace⟩ := List.mem_flatMap.mp h
  cases m with
  | call j =>
    replace hc : s.calls[j]? = some c := by simpa [driven] using hc
    unfold Call.clearing at hplace
    split at hplace
    next =>
      cases List.mem_singleton.mp hplace
      simp [touch?, hc, Call.clearing, hl]
    next => cases hplace
  | register | start | stop | add | remove | update | loop | ending | clock => cases hc

/-- Label values mean the same throughout a run. -/
theorem labelValues_move (s : Scheduler P) (m : Move P) :
    (s.move m).metrics.labelValues = s.metrics.labelValues := by
  rw [metrics_move]
  cases s.touch? m with
  | none => rfl
  | some t => exact s.metrics.apply_labelValues t.labels t.change

/-- A loop keeps its label values. -/
theorem labelsOf_move {s : Scheduler P} {m : Move P} {i : Nat} {l l' : CheckLoop P}
    (hl : s.loops[i]? = some l) (hl' : (s.move m).loops[i]? = some l') :
    (s.move m).labelsOf l' = s.labelsOf l := by
  obtain ⟨l'', hl'', hgo⟩ := (effect_move s m).loopsGoOn.2 i l hl
  obtain rfl := Option.some.inj (hl''.symm.trans hl')
  rw [labelsOf, labelValues_move, hgo.dependency, hgo.endpoint, labelsOf]

/-- A loop keeps its label values throughout a run. -/
theorem labelsOf_run {s : Scheduler P} {ms : List (Move P)} {i : Nat} {l l' : CheckLoop P}
    (hl : s.loops[i]? = some l) (hl' : (s.run ms).loops[i]? = some l') :
    (s.run ms).labelsOf l' = s.labelsOf l := by
  induction ms generalizing s l with
  | nil => rw [Option.some.inj (hl.symm.trans hl'), run_nil]
  | cons m ms ih =>
    obtain ⟨k, hk, -⟩ := (effect_move s m).loopsGoOn.2 i l hl
    exact (ih hk hl').trans (labelsOf_move hl hk)

/-- Whether latencies can be added is settled when the exporter is made. -/
theorem latencyUsable_move (s : Scheduler P) (m : Move P) :
    (s.move m).metrics.latencyUsable = s.metrics.latencyUsable := by
  rw [metrics_move]
  cases s.touch? m with
  | none => rfl
  | some t => exact s.metrics.apply_latencyUsable t.labels t.change

theorem latencyUsable_run (x : Exporter) (defaults : CheckPlan) (ms : List (Move P)) :
    ((fresh x defaults).run ms).metrics.latencyUsable = x.latencyUsable :=
  run_invariant (motive := fun _ s => s.metrics.latencyUsable = x.latencyUsable) rfl
    (fun _ s m h => (latencyUsable_move s m).trans h) ms

end Scheduler

/-! ### Loops without a usable family of latencies -/

namespace CheckLoop

variable {P : Type}

/-- A loop that publishes to an exporter without a usable family of latencies has not written to any
place yet. -/
def Unwritten (l : CheckLoop P) : Prop :=
  ∀ p, l.phase = .publishing p → p.left = places

theorem unwritten_of_not_publishing {l : CheckLoop P} (h : l.isPublishing = false) :
    l.Unwritten := by
  intro p hp
  rw [isPublishing, hp] at h
  cases h

/-- The first place of a publication is the family of latencies. -/
theorem Stepped.unwritten {l : CheckLoop P} {x : Exporter} {now : Instant} {q : Progress P}
    (h : Stepped l x now q) (unusable : x.latencyUsable = false) (hl : l.Unwritten) :
    q.loop.Unwritten := by
  cases h with
  | ended | delayed | launched | broke | rested => exact unwritten_of_not_publishing rfl
  | completed =>
    intro p hp
    cases hp
    rfl
  | @wrote p place rest q publishing next write =>
    have hplace : place :: rest = places := next.symm.trans (hl p publishing)
    cases hplace
    rw [write?, Exporter.observeLatency?_eq, unusable] at write
    cases write

/-- **A loop ends when it is to**, and while it publishes, if it cannot. -/
theorem Stepped.isDone_iff {l : CheckLoop P} {x : Exporter} {now : Instant} {q : Progress P}
    (h : Stepped l x now q) (hl : x.latencyUsable = false → l.Unwritten) :
    q.loop.isDone = true ↔
      if l.isPublishing = true then x.latencyUsable = false else l.isCancelled now = true := by
  cases h with
  | ended busy alive cancelled =>
    rw [if_neg (by rw [busy]; decide)]
    exact ⟨fun _ => cancelled, fun _ => rfl⟩
  | delayed due spawned going =>
    have busy : l.isPublishing = false := by rw [isPublishing, spawned]
    rw [if_neg (by rw [busy]; decide), going]
    exact Iff.rfl
  | launched nextTick resting going =>
    rw [if_neg (by rw [not_publishing_of_resting resting]; decide), going]
    exact Iff.rfl
  | completed lines probing complete =>
    have busy : l.isPublishing = false := by rw [isPublishing, probing]
    have going : l.isCancelled now = false := by
      rw [← Bool.not_eq_true]
      intro cancelled
      simp only [completion?, probing, cancelled, if_true] at complete
      cases complete
    rw [if_neg (by rw [busy]; decide), going]
    exact Iff.rfl
  | @wrote p place rest q publishing next write =>
    have busy : l.isPublishing = true := by rw [isPublishing, publishing]
    obtain ⟨state, transition, hq⟩ := write?_some write
    rw [if_pos busy, hq]
    refine ⟨fun done => Bool.noConfusion done, fun unusable => ?_⟩
    have hplace : place :: rest = places := next.symm.trans (hl unusable p publishing)
    cases hplace
    rw [write?, Exporter.observeLatency?_eq, unusable] at write
    cases write
  | @broke p place rest publishing next write =>
    have busy : l.isPublishing = true := by rw [isPublishing, publishing]
    rw [if_pos busy]
    refine ⟨fun _ => ?_, fun _ => rfl⟩
    cases place with
    | latency =>
      rw [write?, Exporter.observeLatency?_eq] at write
      split at write
      next => cases write
      next unusable => exact Bool.not_eq_true _ ▸ unusable
    | status | detail | state | health => cases write
  | @rested p due publishing last =>
    have busy : l.isPublishing = true := by rw [isPublishing, publishing]
    rw [if_pos busy]
    refine ⟨fun done => Bool.noConfusion done, fun unusable => ?_⟩
    have hplaces : [] = places := last.symm.trans (hl unusable p publishing)
    cases hplaces

end CheckLoop

namespace Scheduler

variable {P : Type}

/-- Where latencies cannot be added no publishing loop has written to any place. -/
def Unwritten (s : Scheduler P) : Prop :=
  s.metrics.latencyUsable = false →
    ∀ (i : Nat) (l : CheckLoop P), s.loops[i]? = some l → l.Unwritten

/-- Every move keeps publishing loops unwritten where latencies cannot be added. -/
theorem Unwritten.move {s : Scheduler P} (h : s.Unwritten) (m : Move P) :
    (s.move m).Unwritten := by
  intro unusable i l' hl'
  rw [latencyUsable_move] at unusable
  have heffect := effect_move s m
  rcases heffect.loopsGoOn.origin hl' with ⟨l, hl, -⟩ | new
  · have hbefore := h unusable i l hl
    by_cases hm : m = .loop i
    · subst hm
      cases hstep : l.step s.metrics s.now with
      | none =>
        rw [move_loop_of_stuck hl hstep, hl] at hl'
        exact Option.some.inj hl' ▸ hbefore
      | some q =>
        have hi : i < s.loops.length := (List.getElem?_eq_some_iff.mp hl).1
        rw [move_loop hl hstep] at hl'
        have hq : q.loop = l' := by simpa [note, hi] using hl'
        rw [← hq]
        exact (CheckLoop.stepped_of_step hstep).unwritten unusable hbefore
    · obtain ⟨l'', hl'', hstands⟩ := heffect.standsBy hm hl
      obtain rfl : l'' = l' := Option.some.inj (hl''.symm.trans hl')
      intro p hp
      exact hbefore p ((hstands.publishing p).mp hp)
  · obtain ⟨d, e, probe, outer, rfl⟩ := heffect.spawned new hl'
    exact CheckLoop.unwritten_of_not_publishing rfl

/-- In every run a loop that cannot add latencies has written to no place. -/
theorem unwritten_run (x : Exporter) (defaults : CheckPlan) (ms : List (Move P)) :
    ((fresh x defaults).run ms).Unwritten :=
  run_invariant (motive := fun _ s => s.Unwritten) (fun _ _ _ h => absurd h (by simp [fresh]))
    (fun _ _ m h => h.move m) ms

end Scheduler

end HealthMonitor
