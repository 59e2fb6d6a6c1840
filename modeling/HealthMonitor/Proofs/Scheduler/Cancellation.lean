import HealthMonitor.Proofs.Scheduler.Deadline

/-!
# Cancellation wins

Wherever a loop waits, several things may be ready at once: its stop signal, its outer deadline, the
timer of its delay or its tick, the end of its probe and the deadline of the probe. It waits by
races. A race polls its branches one after another and goes on with the first that is ready, and
most races have no fixed order. `CheckLoop.polled` is a poll of a loop with all its races: a timer
against the end of the loop, the stop signal against the outer deadline, and for a probe, in fixed
orders, the end of the loop before the probe and the probe before its deadline.

No order of polls makes a difference (`CheckLoop.polled_eq_step`). So a loop that is to end does so
at its next poll, whatever else has become ready. From then on it launches nothing and completes
nothing (`cancellation_wins`). Only a check that was completed before, and is being published, is
published to its end.
-/

namespace HealthMonitor

namespace CheckLoop

variable {P : Type}

/-! ### Races -/

/-- The order in which the branches of a poll are polled, where it is not fixed. -/
structure Toss where
  /-- Whether the end of the loop is polled before a timer. -/
  endFirst : Bool
  /-- Whether the outer deadline is polled before the stop signal. -/
  deadlineFirst : Bool
  deriving DecidableEq, Repr

/-- The answer of the first branch of a race that is ready. -/
def race {α : Type} (swapped : Bool) (a b : Option α) : Option α :=
  if swapped then b <|> a else a <|> b

/-- A timer, which is ready from its instant on. -/
def timer (due now : Instant) : Option Unit :=
  if due ≤ now then some () else none

/-- The end of a loop, which is ready when the loop has been told to stop or when its outer deadline
has come. -/
def cancelled (toss : Toss) (l : CheckLoop P) (now : Instant) : Option Unit :=
  race toss.deadlineFirst (if l.stopped then some () else none)
    (l.outer.bind fun d => timer d now)

/-- What a loop that waits for a timer goes on with. -/
inductive Wake where
  | due
  | cancelled

/-- A timer against the end of a loop. -/
def woken (toss : Toss) (l : CheckLoop P) (due now : Instant) : Option Wake :=
  race toss.endFirst ((timer due now).map fun _ => .due)
    ((l.cancelled toss now).map fun _ => .cancelled)

/-- What a loop that waits for a probe goes on with. -/
inductive Answer where
  | ended (ending : ProbeEnd)
  | late

/-- A probe under its deadline: the probe is polled first. -/
def answered (a : Attempt) (now : Instant) : Option Answer :=
  a.ending.map .ended <|> (timer a.deadline now).map fun _ => .late

/-- A poll of a loop: what it does next at an instant, if anything that it waits for is ready. -/
def polled (toss : Toss) (l : CheckLoop P) (x : Exporter) (now : Instant) :
    Option (Progress P) :=
  match l.phase with
  | .spawned =>
    if l.plan.initialDelay.nanos = 0 then some (l.launch x now none)
    else
      let due := now + l.plan.initialDelay.nanos
      match l.woken toss due now with
      | some .due => some (l.launch x now none)
      | some .cancelled => some (l.moveTo x .finished)
      | none => some (l.moveTo x (.delaying due))
  | .delaying due =>
    (l.woken toss due now).map fun
      | .due => l.launch x now none
      | .cancelled => l.moveTo x .finished
  | .probing a =>
    -- the end of the loop is polled before the probe
    match l.cancelled toss now with
    | some () => some (l.moveTo x .finished)
    | none =>
      (answered a now).map fun
        | .ended ending => l.publish x now a (outcomeOf ending) (l.panicLines ending)
        | .late =>
          if l.isCancelled now then l.moveTo x .finished
          else l.publish x now a (.error (.deadline l.plan.timeout)) []
  | .publishing p => some (l.publishOn x now p)
  | .waiting due =>
    (l.woken toss due now).map fun
      | .due => l.launch x now (some (l.tickAfter due now))
      | .cancelled => l.moveTo x .finished
  | .finished => none
  | .broken => none

/-! ### The order of polls -/

/-- The order in which stop signal and outer deadline are polled makes no difference. -/
theorem cancelled_eq (toss : Toss) (l : CheckLoop P) (now : Instant) :
    l.cancelled toss now = if l.isCancelled now then some () else none := by
  have houter : (l.outer.bind fun d => timer d now) =
      if (l.outer.any fun d => decide (d ≤ now)) then some () else none := by
    cases l.outer with
    | none => rfl
    | some d => simp [timer]
  rw [cancelled, houter, isCancelled]
  generalize (l.outer.any fun d => decide (d ≤ now)) = late
  cases toss.deadlineFirst <;> cases l.stopped <;> cases late <;> rfl

/-- A launch in a loop that is to end is its end, so it makes no difference either whether its timer
comes before its end. -/
private theorem woken_eq (toss : Toss) (l : CheckLoop P) (x : Exporter) (due now : Instant)
    (nextTick : Option Instant) :
    ((l.woken toss due now).map fun
      | .due => l.launch x now nextTick
      | .cancelled => l.moveTo x .finished) =
      if l.isCancelled now then some (l.moveTo x .finished)
      else if due ≤ now then some (l.launch x now nextTick) else none := by
  rw [woken, cancelled_eq, timer]
  cases hcancelled : l.isCancelled now with
  | true =>
    -- with both ready, one order ends the loop and the other launches nothing
    by_cases hdue : due ≤ now <;> cases toss.endFirst <;> simp [race, hdue, launch, hcancelled]
  | false =>
    by_cases hdue : due ≤ now <;> cases toss.endFirst <;> simp [race, hdue]

/-- **A poll does the same in every order.** -/
theorem polled_eq_step (toss : Toss) (l : CheckLoop P) (x : Exporter) (now : Instant) :
    l.polled toss x now = l.step x now := by
  cases hl : l.phase with
  | spawned =>
    simp only [polled, step, hl]
    split
    next => rfl
    next hdelay =>
      -- the timer of the delay has just been set
      have hahead : ¬ now + l.plan.initialDelay.nanos ≤ now :=
        Nat.not_le.mpr (Nat.lt_add_of_pos_right (Nat.pos_of_ne_zero hdelay))
      rw [woken, cancelled_eq, timer, if_neg hahead]
      cases l.isCancelled now <;> cases toss.endFirst <;> rfl
  | delaying due =>
    simp only [polled, step, hl]
    exact woken_eq toss l x due now none
  | waiting due =>
    simp only [polled, step, hl]
    exact woken_eq toss l x due now _
  | probing a =>
    simp only [polled, step, hl, cancelled_eq]
    cases hcancelled : l.isCancelled now with
    | true => rfl
    | false =>
      simp only [answered, timer, Bool.false_eq_true, if_false]
      cases a.ending with
      | some ending => rfl
      | none => by_cases hdeadline : a.deadline ≤ now <;> simp [hdeadline]
  | publishing | finished | broken => simp only [polled, step, hl]

/-! ### Steps of a loop that is to end -/

/-- A loop that is to end does so at its next poll, unless it is publishing a check. -/
theorem step_of_cancelled {l : CheckLoop P} {now : Instant} (cancelled : l.isCancelled now = true)
    (quiet : l.isPublishing = false) (alive : l.isDone = false) (x : Exporter) :
    l.step x now = some (l.moveTo x .finished) := by
  cases hl : l.phase with
  | spawned => simp [step, hl, cancelled, launch]
  | delaying | probing | waiting => simp [step, hl, cancelled]
  | publishing => simp [isPublishing, hl] at quiet
  | finished | broken => simp [isDone, hl] at alive

theorem step_of_isDone {l : CheckLoop P} (done : l.isDone = true) (x : Exporter) (now : Instant) :
    l.step x now = none := by
  unfold isDone at done
  unfold step
  split at done <;> simp_all

theorem stepsLeft_of_quiet {l : CheckLoop P} (quiet : l.isPublishing = false) :
    l.stepsLeft ≤ 1 := by
  unfold stepsLeft
  split
  · exact Nat.zero_le 1
  · exact Nat.zero_le 1
  next p hp => simp [isPublishing, hp] at quiet
  all_goals exact Nat.le_refl 1

/-- How many checks a loop has completed and not recorded yet. -/
def unrecorded (l : CheckLoop P) : Nat :=
  match l.phase with
  | .publishing p => p.left.count .state
  | _ => 0

theorem unrecorded_of_publishing {l : CheckLoop P} {p : Publication}
    (h : l.phase = .publishing p) : l.unrecorded = p.left.count .state := by
  rw [unrecorded, h]

theorem unrecorded_of_quiet {l : CheckLoop P} (quiet : l.isPublishing = false) :
    l.unrecorded = 0 := by
  unfold unrecorded
  split
  next p hp => simp [isPublishing, hp] at quiet
  next => rfl

/-- A loop that is to end records only what it has completed. -/
theorem Stepped.unrecorded_le {l : CheckLoop P} {x : Exporter} {now : Instant} {q : Progress P}
    (h : Stepped l x now q) (cancelled : l.isCancelled now = true) :
    q.events.countP LoopEvent.isRecorded + q.loop.unrecorded ≤ l.unrecorded := by
  cases h with
  | ended | broke => exact Nat.zero_le _
  | delayed _ _ going | launched _ _ going => simp [cancelled] at going
  | completed _ _ complete => simp [going_of_completion complete] at cancelled
  | @wrote p place rest q publishing next write =>
    obtain ⟨state, transition, hq⟩ := write?_some write
    rw [unrecorded_of_publishing publishing, hq, next]
    cases place with
    | state =>
      cases write
      simp [unrecorded, LoopEvent.isRecorded, Nat.add_comm]
    | latency =>
      simp only [write?, Option.map_eq_some_iff] at write
      obtain ⟨y, -, rfl⟩ := write
      simp [unrecorded, moveTo]
    | status | detail | health =>
      cases write
      simp [unrecorded, moveTo]
  | @rested p =>
    have hnone : ((l.resultLines p).map LoopEvent.logged).countP LoopEvent.isRecorded = 0 := by
      simp [List.countP_eq_zero, LoopEvent.isRecorded]
    simp only [unrecorded, hnone]
    exact Nat.zero_le _

end CheckLoop

namespace Scheduler

variable {P : Type}

theorem StandsBy.unrecorded {l l' : CheckLoop P} (h : StandsBy l l') :
    l'.unrecorded = l.unrecorded := by
  by_cases publishing : ∃ p, l.phase = .publishing p
  · obtain ⟨p, hp⟩ := publishing
    rw [CheckLoop.unrecorded_of_publishing hp,
      CheckLoop.unrecorded_of_publishing ((h.publishing p).mpr hp)]
  · have quiet : l.isPublishing = false := by
      rwa [← Bool.not_eq_true, CheckLoop.isPublishing_iff]
    rw [CheckLoop.unrecorded_of_quiet quiet,
      CheckLoop.unrecorded_of_quiet (h.isPublishing.trans quiet)]

theorem length_recordings (s : Scheduler P) (i : Nat) :
    (s.recordings i).length = (s.happened i).countP fun h => h.2.isRecorded := by
  rw [recordings, List.length_map, List.countP_eq_length_filter]

/-- What a step of a loop adds to the checks that it has recorded. -/
theorem length_recordings_of_driven {s : Scheduler P} {i : Nat} {l : CheckLoop P}
    {q : CheckLoop.Progress P} (hl : s.loops[i]? = some l)
    (hq : l.step s.metrics s.now = some q) :
    ((s.move (.loop i)).recordings i).length =
      q.events.countP LoopEvent.isRecorded + (s.recordings i).length := by
  rw [length_recordings, length_recordings, happened_of_driven hl hq, List.countP_append,
    List.countP_reverse, List.countP_map]
  rfl

/-- Only a step of a loop that is not to end launches a probe. -/
theorem launches_of_cancelled {s : Scheduler P} {i : Nat} {l : CheckLoop P}
    {q : CheckLoop.Progress P} (hl : s.loops[i]? = some l)
    (hq : l.step s.metrics s.now = some q) (cancelled : l.isCancelled s.now = true) :
    (s.move (.loop i)).launches i = s.launches i := by
  have hnone : ((q.events.map (s.now, ·)).reverse.filterMap fun h =>
      h.2.deadline?.map (h.1, ·)) = [] := by
    refine List.filterMap_eq_nil_iff.mpr fun p hp => ?_
    obtain ⟨event, hevent, rfl⟩ := List.mem_map.mp (List.mem_reverse.mp hp)
    cases hdeadline : event.deadline? with
    | none => rfl
    | some deadline =>
      have hgoing := ((CheckLoop.stepped_of_step hq).launches hevent hdeadline).1
      simp [cancelled] at hgoing
  rw [launches, happened_of_driven hl hq, List.filterMap_append, hnone, List.nil_append, launches]

/-! ### From then on -/

/-- What a move makes of a loop that is to end. -/
structure Fades (s : Scheduler P) (i : Nat) (m : Move P) (l l' : CheckLoop P) : Prop where
  cancelled : l'.isCancelled (s.move m).now = true
  launched : (s.move m).launches i = s.launches i
  completed : s.completed? i m = none
  recorded : ((s.move m).recordings i).length + l'.unrecorded ≤
    (s.recordings i).length + l.unrecorded

theorem fades_of_cancelled {s : Scheduler P} {i : Nat} {l : CheckLoop P}
    (hl : s.loops[i]? = some l) (cancelled : l.isCancelled s.now = true) (m : Move P) :
    ∃ l', (s.move m).loops[i]? = some l' ∧ Fades s i m l l' := by
  have hm := effect_move s m
  obtain ⟨l', hl', cancelled'⟩ := hm.cancelled hl cancelled
  refine ⟨l', hl', ?_⟩
  by_cases hloop : m = .loop i
  · subst hloop
    have hcompleted : s.completed? i (.loop i) = none := by
      simp [completed?, hl, CheckLoop.completion?_of_cancelled cancelled]
    cases hq : l.step s.metrics s.now with
    | none =>
      have hstay : s.move (.loop i) = s := move_loop_of_stuck hl hq
      rw [hstay] at hl' cancelled'
      obtain rfl := Option.some.inj (hl.symm.trans hl')
      exact ⟨by rwa [hstay], by rw [hstay], hcompleted, Nat.le_of_eq (by rw [hstay])⟩
    | some q =>
      obtain rfl := Option.some.inj ((getElem?_move_loop hl hq).symm.trans hl')
      have hless := (CheckLoop.stepped_of_step hq).unrecorded_le cancelled
      refine ⟨cancelled', launches_of_cancelled hl hq cancelled, hcompleted, ?_⟩
      rw [length_recordings_of_driven hl hq]
      omega
  · obtain ⟨l'', hl'', hstands⟩ := hm.standsBy hloop hl
    obtain rfl := Option.some.inj (hl''.symm.trans hl')
    have hhappened := happened_of_not_driven hm hloop
    refine ⟨cancelled', by rw [launches, hhappened, launches], completed?_of_not_driven hloop,
      Nat.le_of_eq ?_⟩
    rw [length_recordings, hhappened, ← length_recordings, hstands.unrecorded]

/-- What a move makes of one that is not publishing a check either: its end at most. -/
structure FadesAway (s : Scheduler P) (i : Nat) (m : Move P) (l l' : CheckLoop P) : Prop where
  quiet : l'.isPublishing = false
  state : l'.state = l.state
  happened : (s.move m).happened i = s.happened i
  unpublished : m = .loop i → (s.move m).metrics = s.metrics

theorem fadesAway_of_quiet {s : Scheduler P} {i : Nat} {l l' : CheckLoop P}
    (hl : s.loops[i]? = some l) (cancelled : l.isCancelled s.now = true)
    (quiet : l.isPublishing = false) {m : Move P} (hl' : (s.move m).loops[i]? = some l') :
    FadesAway s i m l l' := by
  by_cases hloop : m = .loop i
  · subst hloop
    cases hdone : l.isDone with
    | true =>
      have hstay : s.move (.loop i) = s :=
        move_loop_of_stuck hl (CheckLoop.step_of_isDone hdone _ _)
      rw [hstay] at hl'
      obtain rfl := Option.some.inj (hl.symm.trans hl')
      exact ⟨quiet, rfl, by rw [hstay], fun _ => by rw [hstay]⟩
    | false =>
      have hstep := CheckLoop.step_of_cancelled cancelled quiet hdone s.metrics
      obtain rfl := Option.some.inj ((getElem?_move_loop hl hstep).symm.trans hl')
      exact ⟨rfl, rfl, happened_of_driven hl hstep, fun _ => by rw [move_loop hl hstep]; rfl⟩
  · have hm := effect_move s m
    obtain ⟨l'', hl'', hstands⟩ := hm.standsBy hloop hl
    obtain rfl := Option.some.inj (hl''.symm.trans hl')
    exact ⟨hstands.isPublishing.trans quiet, hstands.state, happened_of_not_driven hm hloop,
      fun h => absurd h hloop⟩

/-- What a loop that is to end does in a run from there. -/
structure GivesUp (s : Scheduler P) (i : Nat) (l : CheckLoop P) (ms : List (Move P)) : Prop where
  /-- Unless it is publishing a check, it ends at its next poll, in whatever order it polls. -/
  ends : ∀ l', (s.run ms).loops[i]? = some l' → l'.isPublishing = false → l'.isDone = false →
    ∀ toss, l'.polled toss (s.run ms).metrics (s.run ms).now =
      some (l'.moveTo (s.run ms).metrics .finished)
  launched : (s.run ms).launches i = s.launches i
  completed : outcomes (s.trace ms) i = []
  /-- What it records it has completed before. -/
  recorded : ((s.run ms).recordings i).length ≤ (s.recordings i).length + l.unrecorded
  ended : l.stepsLeft ≤ ms.countP (Move.drives i) → (s.run ms).isDone i = true

private theorem givesUp_run {s : Scheduler P} {i : Nat} {l : CheckLoop P}
    (hl : s.loops[i]? = some l) (cancelled : l.isCancelled s.now = true) (ms : List (Move P)) :
    GivesUp s i l ms := by
  induction ms generalizing s l with
  | nil =>
    refine ⟨fun l' hl' quiet alive toss => ?_, rfl, rfl, Nat.le_add_right ..,
      isDone_of_driven hl cancelled⟩
    obtain rfl := Option.some.inj (hl.symm.trans hl')
    rw [CheckLoop.polled_eq_step]
    exact CheckLoop.step_of_cancelled cancelled quiet alive _
  | cons m ms ih =>
    obtain ⟨l', hl', hfades⟩ := fades_of_cancelled hl cancelled m
    have hgives := ih hl' hfades.cancelled
    have hcompleted : outcomes (s.trace (m :: ms)) i = outcomes ((s.move m).trace ms) i :=
      List.filterMap_cons_none hfades.completed
    exact ⟨hgives.ends, hgives.launched.trans hfades.launched, hcompleted.trans hgives.completed,
      Nat.le_trans hgives.recorded hfades.recorded, isDone_of_driven hl cancelled⟩

/-- One that is not publishing a check is over with its next step. -/
theorem isDone_of_quiet {s : Scheduler P} {i : Nat} {l : CheckLoop P}
    (hl : s.loops[i]? = some l) (cancelled : l.isCancelled s.now = true)
    (quiet : l.isPublishing = false) {ms : List (Move P)} (driven : .loop i ∈ ms) :
    (s.run ms).isDone i = true := by
  refine isDone_of_driven hl cancelled (Nat.le_trans (CheckLoop.stepsLeft_of_quiet quiet) ?_)
  exact List.one_le_countP_iff.mpr ⟨_, driven, by simp [Move.drives]⟩

/-- What one that is not publishing a check does: nothing is seen of it any more. -/
structure Vanishes (s : Scheduler P) (i : Nat) (l : CheckLoop P) (ms : List (Move P)) : Prop where
  happened : (s.run ms).happened i = s.happened i
  state : ∃ l', (s.run ms).loops[i]? = some l' ∧ l'.state = l.state
  unpublished : ∀ p ∈ s.trace ms, p.2 = .loop i → (p.1.move p.2).metrics = p.1.metrics
  /-- It is over with its next step, even if its probe is still running. -/
  ended : .loop i ∈ ms → (s.run ms).isDone i = true

private theorem vanishes_run {s : Scheduler P} {i : Nat} {l : CheckLoop P}
    (hl : s.loops[i]? = some l) (cancelled : l.isCancelled s.now = true)
    (quiet : l.isPublishing = false) (ms : List (Move P)) : Vanishes s i l ms := by
  induction ms generalizing s l with
  | nil =>
    exact ⟨rfl, ⟨l, hl, rfl⟩, fun _ hp => (List.not_mem_nil hp).elim,
      fun driven => (List.not_mem_nil driven).elim⟩
  | cons m ms ih =>
    obtain ⟨l', hl', hfades⟩ := fades_of_cancelled hl cancelled m
    have haway := fadesAway_of_quiet hl cancelled quiet hl'
    have hrest := ih hl' hfades.cancelled haway.quiet
    obtain ⟨k, hk, hstate⟩ := hrest.state
    refine ⟨hrest.happened.trans haway.happened, ⟨k, hk, hstate.trans haway.state⟩,
      fun p hp driven => ?_, isDone_of_quiet hl cancelled quiet⟩
    rcases List.mem_cons.mp hp with rfl | hp
    · exact haway.unpublished driven
    · exact hrest.unpublished p hp driven

/-- **Cancellation wins.** From the moment a loop has been told to stop or has reached its outer
deadline, it launches and completes nothing, and ends at its next poll, whatever has become ready at
that instant and whatever is polled first. Unless it is publishing a check at that moment, nothing
happens in it any more but its end, which changes neither its state nor the exporter. -/
theorem cancellation_wins (s : Scheduler P) (i : Nat) (l : CheckLoop P)
    (loop : s.loops[i]? = some l) (cancelled : l.isCancelled s.now = true) (ms : List (Move P)) :
    GivesUp s i l ms ∧ (l.isPublishing = false → Vanishes s i l ms) :=
  ⟨givesUp_run loop cancelled ms, fun quiet => vanishes_run loop cancelled quiet ms⟩

/-- A probe ends at the instant of its deadline. The outer deadline comes then too, and the endpoint
is being removed. -/
def collision : List (Move Unit) :=
  [.register (database [Endpoint.plain "a" 1]) (), .start (some 5000000000), .loop 0,
    .clock 5000000000, .ending 0 (.returned (.ok ())), .remove "db" "a" 1, .call 0]

/-- If it were not to end, the loop would take in the probe. -/
theorem collision_cancelled :
    let s := newApp.run collision
    ∃ l, s.loops[0]? = some l ∧ l.isCancelled s.now = true ∧ l.isPublishing = false ∧
      (({ l with outer := none, stopped := false } : CheckLoop Unit).completion? s.now).isSome ∧
      GivesUp s 0 l [.loop 0] ∧ Vanishes s 0 l [.loop 0] := by
  intro s
  obtain ⟨l, hl⟩ : ∃ l, s.loops[0]? = some l :=
    Option.isSome_iff_exists.mp (by decide +kernel)
  have facts : s.loops[0]?.all (fun l => l.isCancelled s.now && !l.isPublishing &&
      (({ l with outer := none, stopped := false } : CheckLoop Unit).completion? s.now).isSome) =
        true := by
    decide +kernel
  simp only [hl, Option.all_some, Bool.and_eq_true, Bool.not_eq_true'] at facts
  obtain ⟨⟨cancelled, quiet⟩, completion⟩ := facts
  obtain ⟨hgives, hvanishes⟩ := cancellation_wins s 0 l hl cancelled [.loop 0]
  exact ⟨l, hl, cancelled, quiet, completion, hgives, hvanishes quiet⟩

end Scheduler

end HealthMonitor
