import HealthMonitor.Proofs.Scheduler.Timetable
import HealthMonitor.Proofs.Scheduler.Validity

/-!
# Checks on time

When clocks stop for a loop wherever something is due for it, and until it has done what it can
(`Scheduler.Punctual`), the loop keeps to its timetable for as long as it is not to end
(`checks_on_time`): whatever its probes do, it launches each of them in its slot, and records each
of them once, within the timeout and before the next is launched.

`Scheduler.checks` is what a loop has done so far, by the journal and by the moves that have ended
its probes. Nothing but its own steps and these moves changes it.
-/

namespace HealthMonitor

namespace Scheduler

variable {P : Type}

/-! ### What a loop has done -/

/-- The checks that a loop has recorded, in order. -/
def records (s : Scheduler P) (i : Nat) : List Record :=
  ((s.happened i).filterMap fun h => h.2.record? h.1).reverse

/-- How and when a move ends a probe of a loop, by the number of the probe, if it does. -/
def endOf? (s : Scheduler P) (i k : Nat) : Move P → Option (Instant × ProbeEnd)
  | .ending j ending =>
    if j = i ∧ s.loops[i]?.any CheckLoop.isProbing = true ∧ (s.launches i).length = k + 1 then
      some (s.now, ending)
    else none
  | _ => none

/-- What a loop has done in a past. -/
def checks (s : Scheduler P) (past : List (Scheduler P × Move P)) (i : Nat) : CheckHistory where
  launches := ((s.launches i).map Prod.fst).reverse
  ends k := past.findSome? fun p => p.1.endOf? i k p.2
  records := s.records i

/-- If a move is one of the clock, then it is one to the next instant at which something is due for
a loop, at most, and the loop can do nothing before. -/
def WaitsFor (s : Scheduler P) (i : Nat) : Move P → Prop
  | .clock t => s.now < t → (s.stepLoop i).isNone = true ∧ ∀ l ∈ s.loops[i]?, ∀ d ∈ l.dues, t ≤ d
  | _ => True

instance (s : Scheduler P) (i : Nat) (m : Move P) : Decidable (s.WaitsFor i m) :=
  match m with
  | .clock t => inferInstanceAs (Decidable (s.now < t → _ ∧ ∀ l ∈ s.loops[i]?, ∀ d ∈ l.dues, t ≤ d))
  | .register .. | .start .. | .stop | .add .. | .remove .. | .update .. | .loop .. | .call ..
  | .ending .. => .isTrue trivial

/-- The clock stops for a loop wherever something is due for it. -/
def Punctual (past : List (Scheduler P × Move P)) (i : Nat) : Prop :=
  ∀ p ∈ past, p.1.WaitsFor i p.2

instance (past : List (Scheduler P × Move P)) (i : Nat) : Decidable (Punctual past i) :=
  inferInstanceAs (Decidable (∀ p ∈ past, p.1.WaitsFor i p.2))

/-! ### What a move adds to it -/

theorem ends_concat (past : List (Scheduler P × Move P)) (s s' s'' : Scheduler P) (m : Move P)
    (i k : Nat) : (s'.checks (past ++ [(s, m)]) i).ends k =
      ((s''.checks past i).ends k).or (s.endOf? i k m) := by
  simp only [checks, List.findSome?_append, List.findSome?_cons, List.findSome?_nil]
  cases s.endOf? i k m <;> rfl

/-- A move that ends no probe of a loop adds nothing by that. -/
theorem checks_concat (s : Scheduler P) {s' : Scheduler P} {m : Move P} {i : Nat}
    (hends : ∀ k, s'.endOf? i k m = none) (past : List (Scheduler P × Move P)) :
    s.checks (past ++ [(s', m)]) i = s.checks past i := by
  have hsame : (s.checks (past ++ [(s', m)]) i).ends = (s.checks past i).ends := by
    funext k
    rw [ends_concat past s' s s, hends, Option.or_none]
  rw [checks, CheckHistory.mk.injEq]
  exact ⟨rfl, hsame, rfl⟩

/-- A step of a loop adds to what it has done. -/
theorem checks_of_driven {s : Scheduler P} {i : Nat} {l : CheckLoop P} {q : CheckLoop.Progress P}
    (hl : s.loops[i]? = some l) (hq : l.step s.metrics s.now = some q)
    (past : List (Scheduler P × Move P)) :
    (s.move (.loop i)).checks (past ++ [(s, .loop i)]) i =
      (s.checks past i).after s.now q.events := by
  have hlaunches : ((s.move (.loop i)).launches i).map Prod.fst =
      (q.events.filterMap fun e => e.deadline?.map fun _ => s.now).reverse ++
        (s.launches i).map Prod.fst := by
    rw [launches, happened_of_driven hl hq, List.filterMap_append, List.map_append, launches,
      List.filterMap_reverse, List.map_reverse, List.filterMap_map, List.map_filterMap]
    simp [Function.comp_def]
  have hrecords : (s.move (.loop i)).records i =
      s.records i ++ q.events.filterMap (LoopEvent.record? s.now) := by
    rw [records, happened_of_driven hl hq, List.filterMap_append, List.reverse_append, records,
      List.filterMap_reverse, List.reverse_reverse, List.filterMap_map]
    rfl
  rw [checks_concat _ fun _ => rfl, checks, CheckHistory.mk.injEq]
  refine ⟨?_, rfl, hrecords⟩
  rw [hlaunches, List.reverse_append, List.reverse_reverse]
  rfl

/-- A move that does not drive a loop adds at most the end of its probe. -/
theorem checks_of_not_driven {s : Scheduler P} {i : Nat} {m : Move P} (hm : m ≠ .loop i)
    (past : List (Scheduler P × Move P)) :
    (s.move m).checks (past ++ [(s, m)]) i =
      { s.checks past i with ends := fun k => ((s.checks past i).ends k).or (s.endOf? i k m) } := by
  have hhappened := happened_of_not_driven (effect_move s m) hm
  have hends : ((s.move m).checks (past ++ [(s, m)]) i).ends =
      fun k => ((s.checks past i).ends k).or (s.endOf? i k m) :=
    funext fun k => ends_concat past s _ s m i k
  rw [checks, CheckHistory.mk.injEq]
  refine ⟨?_, hends, ?_⟩
  · rw [launches, hhappened]
    rfl
  · rw [records, hhappened]
    rfl

/-- Nothing but the end of its probe and its own step changes the phase of a loop. -/
theorem Effect.phase {s s' : Scheduler P} {m : Move P} (h : Effect s m s') {i : Nat}
    (hloop : m ≠ .loop i) (hending : ∀ ending, m ≠ .ending i ending) {l l' : CheckLoop P}
    (hl : s.loops[i]? = some l) (hl' : s'.loops[i]? = some l') : l'.phase = l.phase := by
  have lasts : Lasts (P := P) fun j a b => m ≠ .loop j → (∀ ending, m ≠ .ending j ending) →
      b.phase = a.phase :=
    ⟨fun _ _ _ _ => rfl, fun _ _ _ _ h h' hj he => (h' hj he).trans (h hj he),
      fun _ _ _ _ => rfl⟩
  obtain ⟨k, hk, hphase⟩ := (h.related lasts (fun _ _ ending heq _ he => absurd heq (he ending))
    fun _ _ _ heq _ hj _ => absurd heq hj).2 i l hl
  obtain rfl := Option.some.inj (hk.symm.trans hl')
  exact hphase hloop hending

/-! ### Through a run -/

theorem step_of_stuck {s : Scheduler P} {i : Nat} {l : CheckLoop P} (hl : s.loops[i]? = some l)
    (stuck : (s.stepLoop i).isNone = true) : l.step s.metrics s.now = none := by
  cases hq : l.step s.metrics s.now with
  | none => rfl
  | some q => simp [stepLoop, hl, hq] at stuck

/-- A loop that is not to end is on time. -/
structure KeepsOn (s : Scheduler P) (past : List (Scheduler P × Move P)) (i : Nat) (t₀ : Instant)
    (l : CheckLoop P) : Prop where
  outer : l.outer = none
  onTime : l.stopped = false → (s.checks past i).OnTime t₀ l.plan s.now l.phase

theorem KeepsOn.move {s : Scheduler P} {past : List (Scheduler P × Move P)} {i : Nat} {t₀ : Instant}
    {l : CheckLoop P} (h : s.KeepsOn past i t₀ l) (hl : s.loops[i]? = some l)
    (inRange : l.plan.InRange) (usable : s.metrics.latencyUsable = true) {m : Move P}
    (waits : s.WaitsFor i m) {l' : CheckLoop P} (hl' : (s.move m).loops[i]? = some l') :
    (s.move m).KeepsOn (past ++ [(s, m)]) i t₀ l' := by
  have hm := effect_move s m
  obtain ⟨k, hk, hgo⟩ := hm.loopsGoOn.2 i l hl
  obtain rfl := Option.some.inj (hk.symm.trans hl')
  obtain ⟨k', hk', htold⟩ := hm.staysTold.2 i l hl
  obtain rfl := Option.some.inj (hk'.symm.trans hl')
  have hplan : k'.plan = l.plan := by rw [CheckLoop.plan, hgo.dependency, CheckLoop.plan]
  refine ⟨hgo.outer.trans h.outer, fun running => ?_⟩
  have running' : l.stopped = false := by
    rw [← Bool.not_eq_true]
    exact fun told => by simp [htold.stopped told] at running
  have honTime := h.onTime running'
  rw [hplan]
  by_cases hloop : m = .loop i
  · subst hloop
    have going : l.isCancelled s.now = false := by simp [CheckLoop.isCancelled, h.outer, running']
    cases hq : l.step s.metrics s.now with
    | none =>
      rw [move_loop_of_stuck hl hq] at hl' ⊢
      obtain rfl := Option.some.inj (hl.symm.trans hl')
      rw [checks_concat _ fun _ => rfl]
      exact honTime
    | some q =>
      obtain rfl := Option.some.inj ((getElem?_move_loop hl hq).symm.trans hl')
      have hnow : (s.move (.loop i)).now = s.now := by rw [move_loop hl hq, note]
      rw [checks_of_driven hl hq, hnow]
      exact honTime.step inRange h.outer going usable hq
  · rw [checks_of_not_driven hloop]
    by_cases hending : ∃ ending, m = .ending i ending
    · obtain ⟨ending, rfl⟩ := hending
      have hnext : (s.move (.ending i ending)).loops[i]? = some (l.endProbe ending) := by
        rw [Scheduler.move, Scheduler.endProbe, modifyLoop, List.getElem?_modify_eq, hl]
        rfl
      obtain rfl := Option.some.inj (hnext.symm.trans hl')
      refine honTime.endProbe ending fun k => ?_
      simp [endOf?, hl, checks]
    · push Not at hending
      rw [hm.phase hloop hending hl hl']
      have hends (j : Nat) : s.endOf? i j m = none := by
        cases m with
        | ending j ending =>
          refine if_neg fun h => hending ending ?_
          rw [h.1]
        | register | start | stop | add | remove | update | loop | call | clock => rfl
      simp only [hends, Option.or_none]
      rcases now_of_effect hm with hnow | ⟨t, rfl, hnow⟩
      · rw [hnow]
        exact honTime
      · rw [hnow]
        rcases Nat.lt_or_ge s.now t with hlater | hpast
        · obtain ⟨stuck, due⟩ := waits hlater
          rw [Nat.max_eq_right (Nat.le_of_lt hlater)]
          exact honTime.pass (step_of_stuck hl stuck) (Nat.le_of_lt hlater) (due l hl)
        · rw [Nat.max_eq_left hpast]
          exact honTime

theorem keepsOn_run {s₀ : Scheduler P} {i : Nat} {t₀ : Instant} {l₀ : CheckLoop P}
    (hl₀ : s₀.loops[i]? = some l₀) (h : s₀.KeepsOn [] i t₀ l₀) (inRange : l₀.plan.InRange)
    (usable : s₀.metrics.latencyUsable = true) {ms : List (Move P)}
    (punctual : Punctual (s₀.trace ms) i) :
    ∃ l, (s₀.run ms).loops[i]? = some l ∧ l.plan = l₀.plan ∧
      (s₀.run ms).KeepsOn (s₀.trace ms) i t₀ l := by
  refine (run_invariant (motive := fun past s => s.metrics.latencyUsable = true ∧
    (Punctual past i → ∃ l, s.loops[i]? = some l ∧ l.plan = l₀.plan ∧ s.KeepsOn past i t₀ l))
    ⟨usable, fun _ => ⟨l₀, hl₀, rfl, h⟩⟩ (fun past s m ih => ⟨?_, fun punctual => ?_⟩) ms).2
    punctual
  · rw [latencyUsable_move]
    exact ih.1
  · obtain ⟨l, hl, hplan, hkeeps⟩ := ih.2 fun p hp => punctual p (List.mem_append_left _ hp)
    obtain ⟨l', hl', hgo⟩ := (effect_move s m).loopsGoOn.2 i l hl
    refine ⟨l', hl', ?_, hkeeps.move hl (hplan ▸ inRange) ih.1 (punctual (s, m) (by simp)) hl'⟩
    rw [CheckLoop.plan, hgo.dependency, ← hplan, CheckLoop.plan]

/-- A loop that has just been spawned is on time. -/
theorem onTime_spawned {s : Scheduler P} {i : Nat} (quiet : s.happened i = []) (plan : CheckPlan) :
    (s.checks [] i).OnTime s.now plan s.now .spawned := by
  have hlaunches : (s.checks [] i).launches = [] := by simp [checks, launches, quiet]
  have hrecords : (s.checks [] i).records = [] := by simp [checks, records, quiet]
  refine ⟨⟨?_, ?_, ?_, ?_, fun _ _ => rfl⟩, .spawned hlaunches hrecords rfl⟩
  all_goals simp [hlaunches, hrecords]

/-- Nothing has happened yet in a loop that a move spawns. -/
theorem happened_of_spawned {s s' : Scheduler P} {m : Move P} (h : Effect s m s') {i : Nat}
    (new : s.loops.length ≤ i) (quiet : s.happened i = []) : s'.happened i = [] := by
  refine List.eq_nil_iff_forall_not_mem.mpr fun p hp => ?_
  rcases mem_happened_of_effect h hp with hp | ⟨-, -, l, q, hl, -⟩
  · simp [quiet] at hp
  · exact absurd (List.getElem?_eq_some_iff.mp hl).1 (Nat.not_lt.mpr new)

/-- A loop with a plan that was spawned at `t₀` has kept to its timetable up to now. -/
structure KeepsTime (s : Scheduler P) (i : Nat) (t₀ : Instant) (plan : CheckPlan)
    (c : CheckHistory) : Prop where
  schedule : c.OnSchedule t₀ plan
  /-- The next launch is not late; when nothing can be done, it is still to come. -/
  resting : c.launches.length = c.records.length →
    s.now ≤ c.slot t₀ plan c.launches.length ∧
      ((s.stepLoop i).isNone = true → s.now < c.slot t₀ plan c.launches.length)
  /-- Nor is the record of a probe. -/
  flying : ∀ t, c.launches[c.records.length]? = some t →
    s.now ≤ t + plan.timeout.nanos ∧
      ((s.stepLoop i).isNone = true → s.now < t + plan.timeout.nanos)

theorem keepsTime_of_onTime {s : Scheduler P} {i : Nat} {l : CheckLoop P}
    (hl : s.loops[i]? = some l) {t₀ : Instant} {plan : CheckPlan} {c : CheckHistory}
    (h : c.OnTime t₀ plan s.now l.phase) : s.KeepsTime i t₀ plan c := by
  -- a loop that can do nothing will be on time in the next moment as well
  have next (stuck : (s.stepLoop i).isNone = true) : c.OnTime t₀ plan (s.now + 1) l.phase :=
    h.pass (step_of_stuck hl stuck) (Nat.le_add_right ..)
      (CheckLoop.dues_of_stuck (step_of_stuck hl stuck))
  exact ⟨h.schedule, fun rest => ⟨h.resting rest, fun stuck => (next stuck).resting rest⟩,
    fun t launched => ⟨h.flying launched, fun stuck => (next stuck).flying launched⟩⟩

/-- **Checks are on time.** From its spawning on, a loop that is not told to stop and has no outer
deadline keeps to its timetable on a clock that stops for it, whatever its probes do, and whatever
happens to other loops. -/
theorem checks_on_time (x : Exporter) (defaults : CheckPlan) (before : List (Move P)) (m : Move P)
    (after : List (Move P)) (i : Nat) (l : CheckLoop P) (usable : x.latencyUsable = true)
    (new : ((fresh x defaults).run before).loops.length ≤ i)
    (spawned : i < (((fresh x defaults).run before).move m).loops.length)
    (loop : ((((fresh x defaults).run before).move m).run after).loops[i]? = some l)
    (running : l.stopped = false) (outer : l.outer = none)
    (punctual : Punctual ((((fresh x defaults).run before).move m).trace after) i) :
    let s₀ := ((fresh x defaults).run before).move m
    (s₀.run after).KeepsTime i s₀.now l.plan ((s₀.run after).checks (s₀.trace after) i) := by
  intro s₀
  have hm := effect_move ((fresh x defaults).run before) m
  have hl₀ : s₀.loops[i]? = some s₀.loops[i] := List.getElem?_eq_getElem spawned
  obtain ⟨d, e, probe, deadline, hspawn⟩ := hm.spawned new hl₀
  obtain ⟨k, hk, hgo⟩ := (loopsGoOn_run s₀ after).2 i _ hl₀
  obtain rfl := Option.some.inj (hk.symm.trans loop)
  have hquiet : s₀.happened i = [] :=
    happened_of_spawned hm new (happened_of_no_loop x defaults before new)
  have hkeeps : s₀.KeepsOn [] i s₀.now s₀.loops[i] := by
    refine ⟨hgo.outer.symm.trans outer, fun _ => ?_⟩
    rw [hspawn]
    exact onTime_spawned hquiet _
  have inRange : s₀.loops[i].plan.InRange := by
    have hvetted := vetted_run x defaults (before ++ [m])
    rw [run_concat] at hvetted
    exact (hvetted.rules i _ hl₀).plan
  have husable : s₀.metrics.latencyUsable = true := by
    have hrun := latencyUsable_run x defaults (before ++ [m])
    rwa [run_concat, usable] at hrun
  obtain ⟨k', hk', -, honTime⟩ := keepsOn_run hl₀ hkeeps inRange husable punctual
  obtain rfl := Option.some.inj (hk'.symm.trans loop)
  exact keepsTime_of_onTime loop (honTime.onTime running)

/-! ### Three checks -/

/-- With the standard plan a first probe takes two seconds, a second one hangs, and a third one
panics after one second. -/
def threeChecks : List (Move Unit) :=
  [[.loop 0, .clock 5000000000, .loop 0],
    [.clock 7000000000, .ending 0 (.returned (.ok ()))], List.replicate 7 (.loop 0),
    [.clock 22000000000, .loop 0], [.clock 27000000000], List.replicate 7 (.loop 0),
    [.clock 37000000000, .loop 0],
    [.clock 38000000000, .ending 0 (.panicked "out of range")], List.replicate 7 (.loop 0)].flatten

theorem threeChecks_on_time :
    let registered : List (Move Unit) :=
      [.register { database [Endpoint.plain "a" 1] with plan := CheckPlan.standard } ()]
    let s₀ := (newApp.run registered).move (.start none)
    let s := s₀.run threeChecks
    Punctual (s₀.trace threeChecks) 0 ∧
      (∃ l, s.loops[0]? = some l ∧
        s.KeepsTime 0 0 l.plan (s.checks (s₀.trace threeChecks) 0)) ∧
      (s.checks (s₀.trace threeChecks) 0).launches = [5000000000, 22000000000, 37000000000] ∧
      (s.records 0).map (fun r => (r.moment, r.verdict, r.latency.nanos)) =
        [(7000000000, Verdict.ok, 2000000000), (27000000000, Verdict.timeout, 5000000000),
          (38000000000, Verdict.error, 1000000000)] := by
  intro registered s₀ s
  have punctual : Punctual (s₀.trace threeChecks) 0 := by decide +kernel
  obtain ⟨l, hl⟩ : ∃ l, s.loops[0]? = some l :=
    Option.isSome_iff_exists.mp (by decide +kernel)
  have facts : s.loops[0]?.all (fun l => !l.stopped && l.outer.isNone) = true := by decide +kernel
  simp only [hl, Option.all_some, Bool.and_eq_true, Bool.not_eq_true', Option.isNone_iff_eq_none]
    at facts
  refine ⟨punctual, ⟨l, hl, ?_⟩, by decide +kernel, by decide +kernel⟩
  exact checks_on_time _ _ registered (.start none) threeChecks 0 l (by decide +kernel)
    (by decide +kernel) (by decide +kernel) hl facts.1 facts.2 punctual

end Scheduler

end HealthMonitor
