import HealthMonitor.Proofs.Dependency.Valid
import HealthMonitor.Proofs.Scheduler.Cancellation

/-!
# The timetable of a check loop

The first probe of a loop is launched after the initial delay, and all others in steps of the
interval from the end of the first check on (`CheckHistory.slot`), however long the checks before
have taken: a check has at most the timeout, which is shorter than the interval, so it is over
before the next is due, and no tick is ever late. `CheckHistory.OnSchedule` says this of what has
been launched and recorded so far.

`CheckHistory.InPlace` tells, phase by phase, where a loop stands on its timetable. A loop that is
not to end keeps to it with each step (`CheckHistory.InPlace.step`), when its probe ends
(`CheckHistory.InPlace.endProbe`), and while the clock goes on to what is due next
(`CheckHistory.InPlace.pass`).
-/

namespace HealthMonitor

/-- A check as it has been recorded. -/
structure Record where
  moment : Instant
  verdict : Verdict
  latency : Span

namespace Record

/-- The record of a check that is completed at a moment. -/
def ofOutcome (started moment : Instant) (o : Outcome) : Record :=
  ⟨moment, Verdict.ofOutcome o, ⟨max (moment - started) 1⟩⟩

/-- The record of a check whose probe ends at some moment, or not before its time is up. -/
def ofEnd (plan : CheckPlan) (started : Instant) : Option (Instant × ProbeEnd) → Record
  | some (moment, ending) => ofOutcome started moment (CheckLoop.outcomeOf ending)
  | none => ofOutcome started (started + plan.timeout.nanos) (.error (.deadline plan.timeout))

end Record

/-- The record that an event makes of a check. -/
def LoopEvent.record? (moment : Instant) : LoopEvent → Option Record
  | .recorded verdict latency => some ⟨moment, verdict, latency⟩
  | _ => none

/-- The checks of a loop so far: when its probes were launched, when and how they have ended, by
number, and what was recorded. -/
structure CheckHistory where
  launches : List Instant
  ends : Nat → Option (Instant × ProbeEnd)
  records : List Record

/-- What becomes of a probe that was launched at some instant. -/
structure Checked (plan : CheckPlan) (started : Instant) (ending : Option (Instant × ProbeEnd))
    (r : Record) : Prop where
  record : r = .ofEnd plan started ending
  since : started ≤ r.moment
  within : r.moment ≤ started + plan.timeout.nanos
  positive : 1 ≤ r.latency.nanos
  latency : r.latency.nanos ≤ plan.timeout.nanos
  /-- A probe that has not ended is recorded as a timeout. -/
  hung : ending = none → r.verdict = Verdict.timeout ∧ r.latency = plan.timeout

namespace CheckHistory

variable {t₀ : Instant} {plan : CheckPlan} {c : CheckHistory}

/-- The instant for the launch of a probe, by its number, in a loop that was spawned at `t₀`. -/
def slot (c : CheckHistory) (t₀ : Instant) (plan : CheckPlan) : Nat → Instant
  | 0 => t₀ + plan.initialDelay.nanos
  | k + 1 => (c.records.head?.elim t₀ Record.moment) + (k + 1) * plan.interval.nanos

/-- What has been launched and recorded is on schedule. -/
structure OnSchedule (c : CheckHistory) (t₀ : Instant) (plan : CheckPlan) : Prop where
  launched : ∀ k t, c.launches[k]? = some t → t = c.slot t₀ plan k
  /-- Every probe but the last has been recorded, and the last at most once. -/
  inTurn : c.records.length ≤ c.launches.length ∧ c.launches.length ≤ c.records.length + 1
  recorded : ∀ k r, c.records[k]? = some r →
    ∃ t, c.launches[k]? = some t ∧ Checked plan t (c.ends k) r
  /-- A check is over before the next launch. -/
  apart : ∀ k r t, c.records[k]? = some r → c.launches[k + 1]? = some t → r.moment < t
  unlaunched : ∀ k, c.launches.length ≤ k → c.ends k = none

/-- A probe was launched at some instant and is not recorded yet; then the next tick is known unless
it is the first. -/
structure Flight (c : CheckHistory) (t₀ : Instant) (plan : CheckPlan) (now started : Instant)
    (nextTick : Option Instant) : Prop where
  last : c.launches.length = c.records.length + 1
  launched : c.launches[c.records.length]? = some started
  since : started ≤ now
  within : now ≤ started + plan.timeout.nanos
  past : ∀ r ∈ c.records, r.moment ≤ now
  next : nextTick = if c.records = [] then none else some (c.slot t₀ plan (c.records.length + 1))

/-- Where a loop stands on its timetable. -/
inductive InPlace (c : CheckHistory) (t₀ : Instant) (plan : CheckPlan) (now : Instant) :
    Phase → Prop where
  | spawned (launches : c.launches = []) (records : c.records = []) (born : now = t₀) :
      InPlace c t₀ plan now .spawned
  | delaying {due : Instant} (launches : c.launches = []) (records : c.records = [])
      (slot : due = c.slot t₀ plan 0) (early : now ≤ due) : InPlace c t₀ plan now (.delaying due)
  | probing {a : Attempt} (flight : c.Flight t₀ plan now a.started a.nextTick)
      (deadline : a.deadline = a.started + plan.timeout.nanos)
      (ending : c.ends c.records.length = a.ending.map (now, ·)) :
      InPlace c t₀ plan now (.probing a)
  | publishing {p : Publication} {started : Instant} (unrecorded : p.left.count .state = 1)
      (flight : c.Flight t₀ plan now started p.nextTick)
      (record : ⟨now, p.verdict, p.latency⟩ = Record.ofEnd plan started (c.ends c.records.length)) :
      InPlace c t₀ plan now (.publishing p)
  | published {p : Publication} (recorded : p.left.count .state = 0) (checked : c.records ≠ [])
      (rest : c.launches.length = c.records.length) (past : ∀ r ∈ c.records, r.moment ≤ now)
      (slot : p.nextTick.getD (now + plan.interval.nanos) = c.slot t₀ plan c.records.length)
      (early : now < c.slot t₀ plan c.records.length) : InPlace c t₀ plan now (.publishing p)
  | waiting {due : Instant} (checked : c.records ≠ [])
      (rest : c.launches.length = c.records.length) (past : ∀ r ∈ c.records, r.moment < due)
      (slot : due = c.slot t₀ plan c.records.length) (early : now ≤ due) :
      InPlace c t₀ plan now (.waiting due)

/-! ### What comes to a history -/

/-- A history after what happens at an instant. -/
def after (c : CheckHistory) (now : Instant) (events : List LoopEvent) : CheckHistory where
  launches := c.launches ++ events.filterMap fun e => e.deadline?.map fun _ => now
  ends := c.ends
  records := c.records ++ events.filterMap (LoopEvent.record? now)

/-- A history in which nothing is launched or recorded. -/
theorem after_logged (c : CheckHistory) (now : Instant) (lines : List LogLine) :
    c.after now (lines.map LoopEvent.logged) = c := by
  have hlaunches : ((lines.map LoopEvent.logged).filterMap fun e => e.deadline?.map fun _ => now) =
      [] := by
    simp [LoopEvent.deadline?]
  have hrecords : (lines.map LoopEvent.logged).filterMap (LoopEvent.record? now) = [] := by
    simp [List.filterMap_eq_nil_iff, LoopEvent.record?]
  simp [after, hlaunches, hrecords]

theorem after_nil (c : CheckHistory) (now : Instant) : c.after now [] = c :=
  after_logged c now []

theorem after_launched (c : CheckHistory) (now deadline : Instant) :
    c.after now [.launched deadline] = { c with launches := c.launches ++ [now] } := by
  simp [after, LoopEvent.deadline?, LoopEvent.record?]

theorem after_recorded (c : CheckHistory) (now : Instant) (verdict : Verdict) (latency : Span) :
    c.after now [.recorded verdict latency] =
      { c with records := c.records ++ [⟨now, verdict, latency⟩] } := by
  simp [after, LoopEvent.deadline?, LoopEvent.record?]

/-- The first record settles the slots. -/
theorem slot_record {r : Record} {k : Nat} (h : k = 0 ∨ c.records ≠ []) :
    ({ c with records := c.records ++ [r] } : CheckHistory).slot t₀ plan k = c.slot t₀ plan k := by
  cases k with
  | zero => rfl
  | succ k =>
    have hne : c.records ≠ [] := h.resolve_left (Nat.succ_ne_zero k)
    simp only [slot, List.head?_append_of_ne_nil _ hne]

/-- From the second on, slots are one interval apart. -/
theorem slot_succ {k : Nat} (h : k ≠ 0) :
    c.slot t₀ plan (k + 1) = c.slot t₀ plan k + plan.interval.nanos := by
  obtain ⟨j, rfl⟩ := Nat.exists_eq_succ_of_ne_zero h
  simp only [slot, Nat.succ_mul, Nat.add_assoc]

/-- What is in a list that something has come to was there, or it has come last. -/
private theorem getElem?_concat_cases {α : Type} {as : List α} {a b : α} {k : Nat}
    (h : (as ++ [a])[k]? = some b) : as[k]? = some b ∨ k = as.length ∧ b = a := by
  have hk : k < as.length + 1 := by simpa using (List.getElem?_eq_some_iff.mp h).1
  rcases Nat.lt_or_ge k as.length with hlt | hge
  · exact Or.inl ((List.getElem?_append_left hlt).symm.trans h)
  · obtain rfl : k = as.length := by omega
    rw [List.getElem?_concat_length] at h
    exact Or.inr ⟨rfl, (Option.some.inj h).symm⟩

private theorem getElem?_concat_of {α : Type} {as : List α} {a b : α} {k : Nat}
    (h : as[k]? = some b) : (as ++ [a])[k]? = some b :=
  (List.getElem?_append_left (List.getElem?_eq_some_iff.mp h).1).trans h

/-! ### Keeping to the schedule -/

/-- A probe that is launched in its slot, after all records, is on schedule. -/
theorem OnSchedule.launch (h : c.OnSchedule t₀ plan) {now : Instant}
    (rest : c.launches.length = c.records.length) (slot : now = c.slot t₀ plan c.records.length)
    (past : ∀ r ∈ c.records, r.moment < now) :
    ({ c with launches := c.launches ++ [now] } : CheckHistory).OnSchedule t₀ plan := by
  refine ⟨fun k t ht => ?_, ?_, fun k r hr => ?_, fun k r t hr ht => ?_, fun k hk => ?_⟩
  · rcases getElem?_concat_cases ht with ht | ⟨rfl, rfl⟩
    · exact h.launched k t ht
    · rw [rest]
      exact slot
  · simp only [List.length_append, List.length_singleton]
    omega
  · obtain ⟨t, ht, checked⟩ := h.recorded k r hr
    exact ⟨t, getElem?_concat_of ht, checked⟩
  · rcases getElem?_concat_cases ht with ht | ⟨-, rfl⟩
    · exact h.apart k r t hr ht
    · exact past r (List.mem_of_getElem? hr)
  · refine h.unlaunched k (Nat.le_trans ?_ hk)
    simp

/-- So is the record of the probe in flight. -/
theorem OnSchedule.record (h : c.OnSchedule t₀ plan) {r : Record} {started : Instant}
    (last : c.launches.length = c.records.length + 1)
    (launched : c.launches[c.records.length]? = some started)
    (checked : Checked plan started (c.ends c.records.length) r) :
    ({ c with records := c.records ++ [r] } : CheckHistory).OnSchedule t₀ plan := by
  refine ⟨fun k t ht => ?_, ?_, fun k r' hr => ?_, fun k r' t hr ht => ?_, h.unlaunched⟩
  · rw [slot_record, h.launched k t ht]
    -- when a second probe is launched, there is a first record
    rcases Nat.eq_zero_or_pos k with hzero | hpos
    · exact Or.inl hzero
    · refine Or.inr fun hnone => ?_
      have hk : k < c.launches.length := (List.getElem?_eq_some_iff.mp ht).1
      simp only [hnone, List.length_nil] at last
      omega
  · simp only [List.length_append, List.length_singleton]
    omega
  · rcases getElem?_concat_cases hr with hr | ⟨rfl, rfl⟩
    · exact h.recorded k r' hr
    · exact ⟨started, launched, checked⟩
  · rcases getElem?_concat_cases hr with hr | ⟨rfl, -⟩
    · exact h.apart k r' t hr ht
    · have hk := (List.getElem?_eq_some_iff.mp ht).1
      dsimp only at hk
      omega

/-- The end of the probe in flight changes nothing of what has been recorded. -/
theorem OnSchedule.ends (h : c.OnSchedule t₀ plan) {ends : Nat → Option (Instant × ProbeEnd)}
    (recorded : ∀ k < c.records.length, ends k = c.ends k)
    (unlaunched : ∀ k, c.launches.length ≤ k → ends k = none) :
    ({ c with ends := ends } : CheckHistory).OnSchedule t₀ plan := by
  refine ⟨h.launched, h.inTurn, fun k r hr => ?_, h.apart, unlaunched⟩
  have hk : k < c.records.length := (List.getElem?_eq_some_iff.mp hr).1
  obtain ⟨t, ht, checked⟩ := h.recorded k r hr
  rw [← recorded k hk] at checked
  exact ⟨t, ht, checked⟩

/-- A check that is completed within its time is as it should be. -/
theorem checked_ofEnd (inRange : plan.InRange) {started : Instant}
    {ending : Option (Instant × ProbeEnd)} {r : Record} (record : r = .ofEnd plan started ending)
    (since : started ≤ r.moment) (within : r.moment ≤ started + plan.timeout.nanos) :
    Checked plan started ending r := by
  have hleast : 1 ≤ plan.timeout.nanos := Nat.le_trans (by decide) inRange.timeout.1
  have hlatency : r.latency = ⟨max (r.moment - started) 1⟩ := by
    subst record
    cases ending <;> rfl
  refine ⟨record, since, within, ?_, ?_, fun hung => ?_⟩
  · rw [hlatency]
    exact Nat.le_max_right _ _
  · rw [hlatency]
    exact Nat.max_le.mpr ⟨Nat.sub_le_iff_le_add'.mpr within, hleast⟩
  · subst hung
    have hmoment : r.moment - started = plan.timeout.nanos := by
      rw [record]
      exact Nat.add_sub_cancel_left ..
    refine ⟨by rw [record]; rfl, ?_⟩
    rw [hlatency, hmoment, Nat.max_eq_left hleast]

/-- A loop and what it has done so far are on schedule. -/
structure OnTime (c : CheckHistory) (t₀ : Instant) (plan : CheckPlan) (now : Instant)
    (phase : Phase) : Prop where
  schedule : c.OnSchedule t₀ plan
  place : c.InPlace t₀ plan now phase

/-- A launch in the slot of a probe. -/
theorem OnSchedule.probing (h : c.OnSchedule t₀ plan) {now : Instant} {nextTick : Option Instant}
    (rest : c.launches.length = c.records.length) (slot : now = c.slot t₀ plan c.records.length)
    (past : ∀ r ∈ c.records, r.moment < now)
    (next : nextTick =
      if c.records = [] then none else some (c.slot t₀ plan (c.records.length + 1))) :
    (c.after now [.launched (now + plan.timeout.nanos)]).OnTime t₀ plan now
      (.probing ⟨now, now + plan.timeout.nanos, none, nextTick⟩) := by
  rw [after_launched]
  refine ⟨h.launch rest slot past, .probing ⟨?_, ?_, Nat.le_refl _, Nat.le_add_right .., ?_, next⟩
    rfl ?_⟩
  · simp [rest]
  · rw [← rest]
    exact List.getElem?_concat_length ..
  · exact fun r hr => Nat.le_of_lt (past r hr)
  · exact h.unlaunched _ (Nat.le_of_eq rest)

/-- A record made of the check in flight. -/
theorem OnSchedule.published (h : c.OnSchedule t₀ plan) (inRange : plan.InRange) {now : Instant}
    {started : Instant} {p p' : Publication} (flight : c.Flight t₀ plan now started p.nextTick)
    (record : ⟨now, p.verdict, p.latency⟩ = Record.ofEnd plan started (c.ends c.records.length))
    (recorded : p'.left.count .state = 0) (next : p'.nextTick = p.nextTick) :
    (c.after now [.recorded p.verdict p.latency]).OnTime t₀ plan now (.publishing p') := by
  rw [after_recorded]
  have hends : plan.timeout.nanos < plan.interval.nanos := inRange.ends
  refine ⟨h.record flight.last flight.launched
    (checked_ofEnd inRange record flight.since flight.within),
    .published recorded (List.append_ne_nil_of_right_ne_nil _ (List.cons_ne_nil _ _)) ?_ ?_ ?_ ?_⟩
  · simpa using flight.last
  · intro r hr
    rcases List.mem_append.mp hr with hr | hr
    · exact flight.past r hr
    · obtain rfl := List.mem_singleton.mp hr
      exact Nat.le_refl now
  · rw [next, flight.next, List.length_append, List.length_singleton]
    split
    next first => simp [slot, first]
    next later => rw [Option.getD_some, slot_record (Or.inr later)]
  · rw [List.length_append, List.length_singleton]
    by_cases first : c.records = []
    · simp only [slot, first, List.nil_append, List.head?_cons, Option.elim_some, List.length_nil,
        Nat.zero_add, Nat.one_mul]
      exact Nat.lt_add_of_pos_right (Nat.zero_lt_of_lt hends)
    · have hpos : c.records.length ≠ 0 := fun h => first (List.length_eq_zero_iff.mp h)
      rw [slot_record (Or.inr first), slot_succ hpos]
      -- the check has been launched in its slot, and had less time than there is to the next
      calc now
        _ ≤ started + plan.timeout.nanos := flight.within
        _ < started + plan.interval.nanos := Nat.add_lt_add_left hends started
        _ = c.slot t₀ plan c.records.length + plan.interval.nanos := by
          rw [← h.launched _ _ flight.launched]

end CheckHistory

namespace CheckLoop

variable {P : Type} {l : CheckLoop P} {x : Exporter} {now : Instant}

theorem launch_of_going (going : l.isCancelled now = false) (outer : l.outer = none)
    (nextTick : Option Instant) :
    l.launch x now nextTick =
      ⟨{ l with phase := .probing ⟨now, now + l.plan.timeout.nanos, none, nextTick⟩ }, x,
        [.launched (now + l.plan.timeout.nanos)]⟩ := by
  simp [launch, going, deadlineFrom, outer]

/-- A tick that comes when it is due does not shift the ones behind it. -/
theorem tickAfter_due (l : CheckLoop P) (due : Instant) :
    l.tickAfter due due = due + l.plan.interval.nanos :=
  if_neg (Nat.not_lt.mpr (Nat.le_add_right due tolerance))

/-- A loop that can do nothing has all that is due ahead. -/
theorem dues_of_stuck (stuck : l.step x now = none) : ∀ d ∈ l.dues, now < d := by
  intro d hd
  by_contra hlate
  have due : d ≤ now := Nat.not_lt.mp hlate
  have alive : l.isDone = false := by
    rw [← Bool.not_eq_true]
    intro done
    simp [dues, done] at hd
  have going : l.isCancelled now = false := by
    rw [← Bool.not_eq_true]
    intro cancelled
    simp [isDone_of_stuck cancelled stuck] at alive
  simp only [dues, alive, Bool.false_eq_true, if_false, List.mem_append] at hd
  rcases hd with own | outer
  · cases hl : l.phase with
    | delaying | waiting =>
      simp only [hl, List.mem_singleton] at own
      simp [step, hl, going, ← own, due] at stuck
    | probing a =>
      simp only [hl, List.mem_singleton] at own
      cases hending : a.ending <;> simp [step, hl, going, hending, ← own, due] at stuck
    | spawned | publishing | finished | broken => simp [hl] at own
  · simp [isCancelled_of_outer (Option.mem_toList.mp outer) due] at going

/-- Whether the probe of a loop is running. -/
def isProbing (l : CheckLoop P) : Bool :=
  match l.phase with
  | .probing a => a.ending.isNone
  | _ => false

/-- Writing to a place succeeds with a usable latency family, and records a check in one place. -/
theorem write?_of_usable (usable : x.latencyUsable = true) (p : Publication) (place : Place) :
    ∃ q p', l.write? x now p place = some q ∧ q.loop.phase = .publishing p' ∧
      p'.left = p.left ∧ p'.verdict = p.verdict ∧ p'.latency = p.latency ∧
      p'.nextTick = p.nextTick ∧
      q.events = if place = .state then [.recorded p.verdict p.latency] else [] := by
  cases place with
  | latency =>
    simp only [write?, Exporter.observeLatency?_eq, usable, if_true]
    exact ⟨_, p, rfl, rfl, rfl, rfl, rfl, rfl, rfl⟩
  | status | detail | health => exact ⟨_, p, rfl, rfl, rfl, rfl, rfl, rfl, rfl⟩
  | state => exact ⟨_, { p with transition := _ }, rfl, rfl, rfl, rfl, rfl, rfl, rfl⟩

end CheckLoop

namespace CheckHistory

variable {P : Type} {t₀ now : Instant} {c : CheckHistory} {l : CheckLoop P} {x : Exporter}

/-- What publishes a check goes on publishing, and records it in its turn. -/
theorem OnTime.publishOn (h : c.OnTime t₀ l.plan now l.phase) (inRange : l.plan.InRange)
    (usable : x.latencyUsable = true) {p : Publication} (publishing : l.phase = .publishing p) :
    (c.after now (l.publishOn x now p).events).OnTime t₀ l.plan now
      (l.publishOn x now p).loop.phase := by
  obtain ⟨schedule, place⟩ := h
  rw [publishing] at place
  cases hleft : p.left with
  | nil =>
    simp only [CheckLoop.publishOn, hleft, after_logged]
    cases place with
    | publishing unrecorded => simp [hleft] at unrecorded
    | published _ checked rest past slot early =>
      refine ⟨schedule, .waiting checked rest (fun r hr => ?_) slot (slot ▸ Nat.le_of_lt early)⟩
      exact Nat.lt_of_le_of_lt (past r hr) (slot ▸ early)
  | cons place' rest =>
    obtain ⟨q, p', hwrite, hphase, left', verdict', latency', next', hevents⟩ :=
      @CheckLoop.write?_of_usable P l x now usable { p with left := rest } place'
    have hcount :
        p.left.count .state = p'.left.count .state + if place' = .state then 1 else 0 := by
      rw [hleft, left', List.count_cons]
      simp
    simp only [CheckLoop.publishOn, hleft, hwrite, hphase, hevents]
    by_cases hstate : place' = .state
    · rw [if_pos hstate] at hcount ⊢
      cases place with
      | publishing unrecorded flight record =>
        exact schedule.published inRange flight record (by omega) next'
      | published recorded => omega
    · rw [if_neg hstate] at hcount ⊢
      rw [after_nil]
      refine ⟨schedule, ?_⟩
      cases place with
      | publishing unrecorded flight record =>
        refine .publishing (by omega) (next' ▸ flight) ?_
        rw [verdict', latency']
        exact record
      | published recorded checked rest past slot early =>
        exact .published (by omega) checked rest past (next' ▸ slot) early

/-- **A step of a loop that is not to end keeps to its timetable.** -/
theorem OnTime.step (h : c.OnTime t₀ l.plan now l.phase) (inRange : l.plan.InRange)
    (outer : l.outer = none) (going : l.isCancelled now = false) (usable : x.latencyUsable = true)
    {q : CheckLoop.Progress P} (hq : l.step x now = some q) :
    (c.after now q.events).OnTime t₀ l.plan now q.loop.phase := by
  obtain ⟨schedule, place⟩ := h
  have hlaunch := CheckLoop.launch_of_going (x := x) going outer
  generalize hl : l.phase = phase at place
  cases place with
  | spawned launches records born =>
    have hrest : c.launches.length = c.records.length := by rw [launches, records]; rfl
    simp only [CheckLoop.step, hl, going, Bool.false_eq_true, if_false] at hq
    split at hq
    next nodelay =>
      obtain rfl := Option.some.inj hq
      rw [hlaunch]
      exact schedule.probing hrest (by simp [slot, records, nodelay, born]) (by simp [records])
        (by simp [records])
    next =>
      obtain rfl := Option.some.inj hq
      rw [CheckLoop.moveTo, after_nil]
      exact ⟨schedule, .delaying launches records (by simp [slot, born]) (Nat.le_add_right ..)⟩
  | @delaying due launches records slot early =>
    have hrest : c.launches.length = c.records.length := by rw [launches, records]; rfl
    simp only [CheckLoop.step, hl, going, Bool.false_eq_true, if_false] at hq
    split at hq
    next hdue =>
      obtain rfl := Option.some.inj hq
      obtain rfl : now = due := Nat.le_antisymm early hdue
      rw [hlaunch]
      exact schedule.probing hrest (by rw [records]; exact slot) (by simp [records])
        (by simp [records])
    next => cases hq
  | @probing a flight deadline ending =>
    simp only [CheckLoop.step, hl, going, Bool.false_eq_true, if_false] at hq
    split at hq
    next ended hended =>
      obtain rfl := Option.some.inj hq
      rw [CheckLoop.publish, after_logged]
      refine ⟨schedule, .publishing rfl flight ?_⟩
      rw [ending, hended]
      rfl
    next hrunning =>
      split at hq
      next late =>
        obtain rfl := Option.some.inj hq
        rw [CheckLoop.publish, after_logged]
        refine ⟨schedule, .publishing rfl flight ?_⟩
        have hnow : now = a.started + l.plan.timeout.nanos :=
          Nat.le_antisymm flight.within (deadline ▸ late)
        rw [ending, hrunning, hnow]
        rfl
      next => cases hq
  | publishing unrecorded flight record =>
    simp only [CheckLoop.step, hl] at hq
    obtain rfl := Option.some.inj hq
    exact OnTime.publishOn ⟨schedule, hl ▸ .publishing unrecorded flight record⟩ inRange usable hl
  | published recorded checked rest past slot early =>
    simp only [CheckLoop.step, hl] at hq
    obtain rfl := Option.some.inj hq
    exact OnTime.publishOn ⟨schedule, hl ▸ .published recorded checked rest past slot early⟩ inRange
      usable hl
  | @waiting due checked rest past slot early =>
    simp only [CheckLoop.step, hl, going, Bool.false_eq_true, if_false] at hq
    split at hq
    next hdue =>
      obtain rfl := Option.some.inj hq
      obtain rfl : now = due := Nat.le_antisymm early hdue
      rw [hlaunch]
      refine schedule.probing rest slot past ?_
      have hpos : c.records.length ≠ 0 := fun h => checked (List.length_eq_zero_iff.mp h)
      rw [if_neg checked, slot_succ hpos, ← slot, CheckLoop.tickAfter_due]
    next => cases hq

/-- The end of the running probe is known from then on. -/
theorem OnTime.endProbe (h : c.OnTime t₀ plan now l.phase) (ending : ProbeEnd)
    {ends : Nat → Option (Instant × ProbeEnd)}
    (hends : ∀ k, ends k = (c.ends k).or
      (if l.isProbing = true ∧ c.launches.length = k + 1 then some (now, ending) else none)) :
    ({ c with ends := ends } : CheckHistory).OnTime t₀ plan now (l.endProbe ending).phase := by
  obtain ⟨schedule, place⟩ := h
  by_cases hprobing : ∃ a, l.phase = .probing a
  · obtain ⟨a, ha⟩ := hprobing
    rw [ha] at place
    obtain _ | _ | ⟨flight, deadline, hending⟩ := place
    have hlast := flight.last
    have hother (k : Nat) (hk : k ≠ c.records.length) : ends k = c.ends k := by
      have hnot : ¬ (l.isProbing = true ∧ c.launches.length = k + 1) := fun h => hk (by omega)
      simp [hends, hnot]
    refine ⟨schedule.ends (fun k hk => hother k (Nat.ne_of_lt hk)) fun k hk => ?_, ?_⟩
    · rw [hother k (by omega)]
      exact schedule.unlaunched k hk
    · simp only [CheckLoop.endProbe, ha]
      refine .probing ⟨hlast, flight.launched, flight.since, flight.within, flight.past,
        flight.next⟩ deadline ?_
      change ends c.records.length = (a.ending <|> some ending).map (now, ·)
      rw [hends, hending, hlast]
      cases hold : a.ending <;> simp [CheckLoop.isProbing, ha, hold]
  · have hquiet : l.isProbing = false := by
      unfold CheckLoop.isProbing
      split
      next a ha => exact absurd ⟨a, ha⟩ hprobing
      next => rfl
    have hsame : l.endProbe ending = l :=
      (l.endProbe_cases ending).resolve_right fun ⟨a, ha, _⟩ => hprobing ⟨a, ha⟩
    have hnone : ends = c.ends := funext fun k => by simp [hends, hquiet]
    rw [hsame, hnone]
    exact ⟨schedule, place⟩

/-- **The clock may go on to what is due next.** -/
theorem OnTime.pass (h : c.OnTime t₀ plan now l.phase) (stuck : l.step x now = none) {t : Instant}
    (later : now ≤ t) (due : ∀ d ∈ l.dues, t ≤ d) : c.OnTime t₀ plan t l.phase := by
  obtain ⟨schedule, place⟩ := h
  refine ⟨schedule, ?_⟩
  generalize hl : l.phase = phase at place
  cases place with
  | spawned =>
    simp only [CheckLoop.step, hl] at stuck
    split at stuck
    · cases stuck
    · split at stuck <;> cases stuck
  | delaying launches records slot =>
    exact .delaying launches records slot (due _ (by simp [CheckLoop.dues, CheckLoop.isDone, hl]))
  | @probing a flight deadline ending =>
    have hrunning : a.ending = none := by
      cases hending : a.ending with
      | none => rfl
      | some e =>
        simp only [CheckLoop.step, hl, hending] at stuck
        split at stuck <;> cases stuck
    have hdue : t ≤ a.deadline := due _ (by simp [CheckLoop.dues, CheckLoop.isDone, hl])
    obtain ⟨last, launched, since, -, past, next⟩ := flight
    refine .probing ⟨last, launched, Nat.le_trans since later, deadline ▸ hdue,
      fun r hr => Nat.le_trans (past r hr) later, next⟩ deadline ?_
    rw [ending, hrunning]
    rfl
  | publishing | published => simp [CheckLoop.step, hl] at stuck
  | waiting checked rest past slot =>
    exact .waiting checked rest past slot
      (due _ (by simp [CheckLoop.dues, CheckLoop.isDone, hl]))

/-- While no probe is in flight, the slot of the next has not passed. -/
theorem OnTime.resting {phase : Phase} (h : c.OnTime t₀ plan now phase)
    (rest : c.launches.length = c.records.length) : now ≤ c.slot t₀ plan c.launches.length := by
  obtain ⟨-, place⟩ := h
  cases place with
  | spawned launches _ born => simp [slot, launches, born]
  | delaying launches _ slot early => rwa [launches, List.length_nil, ← slot]
  | probing flight | publishing _ flight =>
    have hlast := flight.last
    omega
  | published _ _ _ _ _ early => exact rest ▸ Nat.le_of_lt early
  | waiting _ _ _ slot early => rwa [rest, ← slot]

/-- While one is in flight, its time is not over. -/
theorem OnTime.flying {phase : Phase} (h : c.OnTime t₀ plan now phase) {t : Instant}
    (launched : c.launches[c.records.length]? = some t) : now ≤ t + plan.timeout.nanos := by
  obtain ⟨-, place⟩ := h
  cases place with
  | probing flight | publishing _ flight =>
    rw [Option.some.inj (launched.symm.trans flight.launched)]
    exact flight.within
  | spawned launches | delaying launches => simp [launches] at launched
  | published _ _ rest | waiting _ rest => simp [← rest] at launched

end CheckHistory

end HealthMonitor
