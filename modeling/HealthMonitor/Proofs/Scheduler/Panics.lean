import HealthMonitor.Proofs.Scheduler.Punctual
import HealthMonitor.Proofs.Scheduler.Touches
import HealthMonitor.Proofs.Text.Words

/-!
# Panics of probes

A probe that panics fails one check and no more. Its loop takes that for the end of the attempt:
with its fifth turn it records a failure, with the seventh it waits for the next tick, and with the
first one that comes no earlier than the tick it launches the next probe (`panic_survived`).

What the check is recorded as depends on what the panic said. The text of a panic is the last thing
that is known of it, so the rule that listens to texts decides: a panic that mentions a handshake
passes for a failed one, and only one that does not is the plain error (`Verdict.ofPanic`).
-/

namespace HealthMonitor

/-! ### What is said of a panic -/

/-- The verdict on a check whose probe panicked. -/
def Verdict.ofPanic (message : String) : Verdict :=
  if Cause.speaksOfTls message then .tls else .error

/-- The words in front of the message of a panic have no part in what it speaks of. -/
theorem Cause.speaksOfTls_panicked (message : String) :
    speaksOfTls (Failure.panicked message).message = speaksOfTls message := by
  have hlower : Text.lower ("probe panicked: " ++ message).toList =
      "probe panicked:".toList ++ ' ' :: Text.lower message.toList := by
    simp [Text.lower]
  have hplain : ∀ word ∈ tlsWords,
      ' ' ∉ word.toList ∧ Text.holds word.toList "probe panicked:".toList = false := by
    decide +kernel
  have hmessage : (Failure.panicked message).message = "probe panicked: " ++ message := rfl
  simp only [speaksOfTls, hmessage]
  rw [hlower, Bool.eq_iff_iff, List.any_eq_true, List.any_eq_true]
  refine exists_congr fun word => and_congr_right fun hword => ?_
  obtain ⟨hspace, hfront⟩ := hplain word hword
  rw [← Bool.not_eq_true, Text.holds_iff_infix] at hfront
  rw [Text.holds_iff_infix, Text.holds_iff_infix, Text.infix_append_cons_iff hspace,
    or_iff_right hfront]

/-- **A panic is judged by its message.** -/
theorem Verdict.ofOutcome_panicked (message : String) :
    ofOutcome (.error (.panicked message)) = ofPanic message := by
  have hheard := Cause.speaksOfTls_panicked message
  simp [ofOutcome, ofFailure, ofPanic, Failure.causes, Failure.behind, Cause.failure?, ofTag?,
    ofSymptom?, ofTypedCauses, Cause.isDeadline, Cause.isDns, Cause.ioKind?, Cause.isTls,
    Cause.message, hheard]

theorem Verdict.isOk_ofPanic (message : String) : (ofPanic message).isOk = false := by
  unfold ofPanic
  split <;> decide

/-- The record of a check whose probe panicked. -/
def Record.ofPanic (message : String) (started ended moment : Instant) : Record :=
  ⟨moment, Verdict.ofPanic message, ⟨max (ended - started) 1⟩⟩

/-! ### What a loop makes of it -/

namespace CheckLoop

variable {P : Type}

/-- A failure by a panic is recorded: it is the last thing that is known of the endpoint, and no
probe has been launched since. -/
structure Fails (l₀ l : CheckLoop P) (message : String) (r : Record) (c₀ c : CheckHistory) :
    Prop where
  records : c.records = c₀.records ++ [r]
  launches : c.launches = c₀.launches
  verdict : l.state.verdict = Verdict.ofPanic message
  tracker : l.state.tracker = (l₀.state.tracker.record false).2

/-- Where a loop stands after the panic of a probe, by the instants of its turns since then. The
first of them ends the attempt, and the others count from there. -/
inductive Aftermath (l₀ : CheckLoop P) (a : Attempt) (message : String) (c₀ c : CheckHistory)
    (l : CheckLoop P) : List Instant → Prop where
  | fallen (phase : l.phase = .probing { a with ending := some (.panicked message) })
      (state : l.state = l₀.state) (records : c.records = c₀.records)
      (launches : c.launches = c₀.launches) : Aftermath l₀ a message c₀ c l []
  | publishing {ended : Instant} {ts : List Instant} {p : Publication}
      (phase : l.phase = .publishing p) (few : ts.length ≤ 3)
      (left : p.left = places.drop ts.length) (next : p.nextTick = a.nextTick)
      (verdict : p.verdict = Verdict.ofPanic message)
      (latency : p.latency = ⟨max (ended - a.started) 1⟩) (state : l.state = l₀.state)
      (records : c.records = c₀.records) (launches : c.launches = c₀.launches) :
      Aftermath l₀ a message c₀ c l (ended :: ts)
  | published {ended moment : Instant} {ts : List Instant} {p : Publication}
      (phase : l.phase = .publishing p) (many : 4 ≤ ts.length) (few : ts.length ≤ 5)
      (left : p.left = places.drop ts.length) (next : p.nextTick = a.nextTick)
      (fourth : ts[3]? = some moment)
      (fails : l₀.Fails l message (.ofPanic message a.started ended moment) c₀ c) :
      Aftermath l₀ a message c₀ c l (ended :: ts)
  | waiting {ended moment rest due : Instant} {ts : List Instant} (phase : l.phase = .waiting due)
      (fourth : ts[3]? = some moment) (sixth : ts[5]? = some rest)
      (tick : due = a.nextTick.getD (rest + l₀.plan.interval.nanos))
      (early : ∀ t ∈ ts.drop 6, t < due)
      (fails : l₀.Fails l message (.ofPanic message a.started ended moment) c₀ c) :
      Aftermath l₀ a message c₀ c l (ended :: ts)
  | launched {ended moment rest due t : Instant} {ts : List Instant} (alive : l.isDone = false)
      (fourth : ts[3]? = some moment) (sixth : ts[5]? = some rest)
      (tick : due = a.nextTick.getD (rest + l₀.plan.interval.nanos))
      (late : (ts.drop 6).find? (due ≤ ·) = some t)
      (records : c₀.records ++ [.ofPanic message a.started ended moment] <+: c.records)
      (launches : c₀.launches ++ [t] <+: c.launches) : Aftermath l₀ a message c₀ c l (ended :: ts)

variable {l₀ l : CheckLoop P} {a : Attempt} {message : String} {c₀ c : CheckHistory} {x : Exporter}
  {now : Instant} {turns : List Instant}

/-- Only one place takes the result of a check in. -/
theorem state_of_write {p : Publication} {place : Place} {q : Progress P}
    (h : l.write? x now p place = some q) :
    if place = .state then q.loop.state.verdict = p.verdict ∧
        q.loop.state.tracker = (l.state.tracker.record p.verdict.isOk).2
      else q.loop.state = l.state := by
  cases place with
  | latency =>
    obtain ⟨y, -, rfl⟩ := Option.map_eq_some_iff.mp h
    rfl
  | status | detail | health =>
    cases h
    rfl
  | state =>
    cases h
    exact ⟨rfl, rfl⟩

/-- A loop that has places left writes to the first of them. -/
theorem step_of_publishing {p : Publication} {place : Place} {rest : List Place}
    (phase : l.phase = .publishing p) (left : p.left = place :: rest)
    (usable : x.latencyUsable = true) {q : Progress P} (hq : l.step x now = some q) :
    ∃ p', q.loop.phase = .publishing p' ∧ p'.left = rest ∧ p'.verdict = p.verdict ∧
      p'.latency = p.latency ∧ p'.nextTick = p.nextTick ∧
      (q.events = if place = .state then [.recorded p.verdict p.latency] else []) ∧
      if place = .state then q.loop.state.verdict = p.verdict ∧
          q.loop.state.tracker = (l.state.tracker.record p.verdict.isOk).2
        else q.loop.state = l.state := by
  obtain ⟨q', p', hwrite, hphase, hleft, hverdict, hlatency, hnext, hevents⟩ :=
    @write?_of_usable P l x now usable { p with left := rest } place
  obtain rfl : q' = q := by simpa [CheckLoop.step, phase, publishOn, left, hwrite] using hq
  have hstate := state_of_write hwrite
  exact ⟨p', hphase, hleft, hverdict, hlatency, hnext, hevents, hstate⟩

theorem drop_places {k : Nat} (h : k < 5) :
    ∃ place, places.drop k = place :: places.drop (k + 1) ∧ (place = .state ↔ k = 3) := by
  match k, h with
  | 0, _ | 1, _ | 2, _ | 3, _ | 4, _ => exact ⟨_, rfl, by decide⟩

/-- What a turn was stays so. -/
theorem getElem?_concat {ts : List Instant} {k : Nat} {t : Instant} (h : ts[k]? = some t)
    (now : Instant) : (ts ++ [now])[k]? = some t := by
  rw [List.getElem?_append_left (List.getElem?_eq_some_iff.mp h).1, h]

/-- The turns of a loop that publishes the failure. -/
theorem Aftermath.step_publishing {p : Publication} {ended : Instant} {ts : List Instant}
    (phase : l.phase = .publishing p) (few : ts.length ≤ 3) (left : p.left = places.drop ts.length)
    (next : p.nextTick = a.nextTick) (verdict : p.verdict = Verdict.ofPanic message)
    (latency : p.latency = ⟨max (ended - a.started) 1⟩) (state : l.state = l₀.state)
    (records : c.records = c₀.records) (launches : c.launches = c₀.launches)
    (usable : x.latencyUsable = true) {q : Progress P} (hq : l.step x now = some q) :
    Aftermath l₀ a message c₀ (c.after now q.events) q.loop (ended :: (ts ++ [now])) := by
  obtain ⟨place, hdrop, hplace⟩ := drop_places (k := ts.length) (by omega)
  obtain ⟨p', phase', left', verdict', latency', next', hevents, hstate⟩ :=
    step_of_publishing phase (left.trans hdrop) usable hq
  have hlength : (ts ++ [now]).length = ts.length + 1 := by simp
  by_cases hlast : ts.length = 3
  · rw [if_pos (hplace.mpr hlast)] at hevents hstate
    have fourth : (ts ++ [now])[3]? = some now := by simp [← hlast]
    rw [hevents, CheckHistory.after_recorded]
    refine .published phase' (by omega) (by omega) (by rw [left', hlength]) (next'.trans next)
      fourth ⟨?_, launches, hstate.1.trans verdict, ?_⟩
    · simp [records, verdict, latency, Record.ofPanic]
    · rw [hstate.2, state, verdict, Verdict.isOk_ofPanic]
  · rw [if_neg (mt hplace.mp hlast)] at hevents hstate
    rw [hevents, CheckHistory.after_nil]
    exact .publishing phase' (by omega) (by rw [left', hlength]) (next'.trans next)
      (verdict'.trans verdict) (latency'.trans latency) (hstate.trans state) records launches

/-- The turns of a loop that has recorded the failure and goes on publishing it. -/
theorem Aftermath.step_published {p : Publication} {ended moment : Instant} {ts : List Instant}
    (phase : l.phase = .publishing p) (many : 4 ≤ ts.length) (few : ts.length ≤ 5)
    (left : p.left = places.drop ts.length) (next : p.nextTick = a.nextTick)
    (fourth : ts[3]? = some moment)
    (fails : l₀.Fails l message (.ofPanic message a.started ended moment) c₀ c)
    (plan : l.plan = l₀.plan) (usable : x.latencyUsable = true) {q : Progress P}
    (hq : l.step x now = some q) :
    Aftermath l₀ a message c₀ (c.after now q.events) q.loop (ended :: (ts ++ [now])) := by
  have hlength : (ts ++ [now]).length = ts.length + 1 := by simp
  have fourth' : (ts ++ [now])[3]? = some moment := getElem?_concat fourth now
  by_cases hlast : ts.length = 5
  · have hleft : p.left = [] := by rw [left, hlast]; rfl
    obtain rfl := Option.some.inj ((by simp [CheckLoop.step, phase] :
      l.step x now = some (l.publishOn x now p)).symm.trans hq)
    have sixth : (ts ++ [now])[5]? = some now := by simp [← hlast]
    simp only [publishOn, hleft, CheckHistory.after_logged]
    refine .waiting rfl fourth' sixth (by rw [next, plan]) ?_
      ⟨fails.records, fails.launches, fails.verdict, fails.tracker⟩
    rw [List.drop_eq_nil_of_le (by omega)]
    exact List.forall_mem_nil _
  · obtain ⟨place, hdrop, hplace⟩ := drop_places (k := ts.length) (by omega)
    obtain ⟨p', phase', left', -, -, next', hevents, hstate⟩ :=
      step_of_publishing phase (left.trans hdrop) usable hq
    have hother : place ≠ .state := fun h => absurd (hplace.mp h) (by omega)
    rw [if_neg hother] at hevents hstate
    rw [hevents, CheckHistory.after_nil]
    exact .published phase' (by omega) (by omega) (by rw [left', hlength]) (next'.trans next)
      fourth' ⟨fails.records, fails.launches, by rw [hstate, fails.verdict],
        by rw [hstate, fails.tracker]⟩

/-- **Each turn brings a loop on.** -/
theorem Aftermath.step (h : Aftermath l₀ a message c₀ c l turns) (plan : l.plan = l₀.plan)
    (going : l.isCancelled now = false) (usable : x.latencyUsable = true) {q : Progress P}
    (hq : l.step x now = some q) :
    Aftermath l₀ a message c₀ (c.after now q.events) q.loop (turns ++ [now]) := by
  cases h with
  | fallen phase state records launches =>
    simp only [CheckLoop.step, phase, going, Bool.false_eq_true, if_false] at hq
    obtain rfl := Option.some.inj hq
    rw [publish, CheckHistory.after_logged]
    exact .publishing rfl (Nat.zero_le 3) rfl rfl (Verdict.ofOutcome_panicked message) rfl state
      records launches
  | publishing phase few left next verdict latency state records launches =>
    exact step_publishing phase few left next verdict latency state records launches usable hq
  | published phase many few left next fourth fails =>
    exact step_published phase many few left next fourth fails plan usable hq
  | @waiting ended moment rest due ts phase fourth sixth tick early fails =>
    simp only [CheckLoop.step, phase, going, Bool.false_eq_true, if_false] at hq
    split at hq
    next hdue =>
      obtain rfl := Option.some.inj hq
      have hlong : 6 ≤ ts.length := (List.getElem?_eq_some_iff.mp sixth).1
      have hnone : (ts.drop 6).find? (due ≤ ·) = none := by
        rw [List.find?_eq_none]
        exact fun t ht => by simpa using early t ht
      have hlate : ((ts ++ [now]).drop 6).find? (due ≤ ·) = some now := by
        rw [List.drop_append_of_le_length hlong, List.find?_append, hnone]
        simp [hdue]
      rw [launch, if_neg (by rw [going]; decide), CheckHistory.after_launched]
      refine .launched rfl (getElem?_concat fourth now) (getElem?_concat sixth now) tick hlate ?_ ?_
      · exact fails.records ▸ List.prefix_rfl
      · exact fails.launches ▸ List.prefix_rfl
    next => cases hq
  | @launched ended moment rest due t ts alive fourth sixth tick late records launches =>
    have hlong : 6 ≤ ts.length := (List.getElem?_eq_some_iff.mp sixth).1
    have hlate : ((ts ++ [now]).drop 6).find? (due ≤ ·) = some t := by
      rw [List.drop_append_of_le_length hlong, List.find?_append, late, Option.some_or]
    have halive : q.loop.isDone = false := by
      rw [← Bool.not_eq_true, (stepped_of_step hq).isDone_iff fun h => by simp [usable] at h]
      simp [usable, going]
    exact .launched halive (getElem?_concat fourth now) (getElem?_concat sixth now) tick hlate
      (records.trans (List.prefix_append ..)) (launches.trans (List.prefix_append ..))

/-- A turn at which nothing is due only goes by. -/
theorem Aftermath.stuck (h : Aftermath l₀ a message c₀ c l turns)
    (going : l.isCancelled now = false) (hq : l.step x now = none) :
    Aftermath l₀ a message c₀ c l (turns ++ [now]) := by
  cases h with
  | fallen phase => simp [CheckLoop.step, phase, going] at hq
  | publishing phase | published phase => simp [CheckLoop.step, phase] at hq
  | @waiting ended moment rest due ts phase fourth sixth tick early fails =>
    have hearly : now < due := by simpa [CheckLoop.step, phase, going] using hq
    have hlong : 6 ≤ ts.length := (List.getElem?_eq_some_iff.mp sixth).1
    have hnone : ∀ t ∈ (ts ++ [now]).drop 6, t < due := by
      rw [List.drop_append_of_le_length hlong]
      exact List.forall_mem_append.mpr ⟨early, List.forall_mem_singleton.mpr hearly⟩
    exact .waiting phase (getElem?_concat fourth now) (getElem?_concat sixth now) tick hnone fails
  | @launched ended moment rest due t ts alive fourth sixth tick late records launches =>
    have hlong : 6 ≤ ts.length := (List.getElem?_eq_some_iff.mp sixth).1
    have hlate : ((ts ++ [now]).drop 6).find? (due ≤ ·) = some t := by
      rw [List.drop_append_of_le_length hlong, List.find?_append, late, Option.some_or]
    exact .launched alive (getElem?_concat fourth now) (getElem?_concat sixth now) tick hlate
      records launches

/-- Nothing but its phase, its state and what it has done says where a loop stands. -/
theorem Aftermath.standBy (h : Aftermath l₀ a message c₀ c l turns) {l' : CheckLoop P}
    {c' : CheckHistory} (phase' : l'.phase = l.phase) (state' : l'.state = l.state)
    (records' : c'.records = c.records) (launches' : c'.launches = c.launches) :
    Aftermath l₀ a message c₀ c' l' turns := by
  have hfails {r : Record} (fails : l₀.Fails l message r c₀ c) : l₀.Fails l' message r c₀ c' := by
    refine ⟨?_, ?_, ?_, ?_⟩
    · rw [records', fails.records]
    · rw [launches', fails.launches]
    · rw [state', fails.verdict]
    · rw [state', fails.tracker]
  cases h with
  | fallen phase state records launches =>
    exact .fallen (phase'.trans phase) (state'.trans state) (records'.trans records)
      (launches'.trans launches)
  | publishing phase few left next verdict latency state records launches =>
    exact .publishing (phase'.trans phase) few left next verdict latency (state'.trans state)
      (records'.trans records) (launches'.trans launches)
  | published phase many few left next fourth fails =>
    exact .published (phase'.trans phase) many few left next fourth (hfails fails)
  | waiting phase fourth sixth tick early fails =>
    exact .waiting (phase'.trans phase) fourth sixth tick early (hfails fails)
  | launched alive fourth sixth tick late records launches =>
    have halive : l'.isDone = false := by rw [isDone, phase', ← isDone, alive]
    exact .launched halive fourth sixth tick late (records' ▸ records) (launches' ▸ launches)

/-- A probe that has panicked does not end again. -/
theorem Aftermath.endProbe (h : Aftermath l₀ a message c₀ c l turns) (ending : ProbeEnd) :
    Aftermath l₀ a message c₀ c (l.endProbe ending) turns := by
  rcases l.endProbe_cases ending with hsame | ⟨b, hb, hended⟩
  · rw [hsame]
    exact h
  · rw [hended]
    cases h with
    | fallen phase state records launches =>
      obtain rfl := Phase.probing.inj (hb.symm.trans phase)
      exact .fallen rfl state records launches
    | publishing phase | published phase | waiting phase => cases hb.symm.trans phase
    | launched alive fourth sixth tick late records launches =>
      exact .launched rfl fourth sixth tick late records launches

/-- What a loop that is not to end has done since a panic of its probe, by the instants of its turns
since then. -/
structure GetsOver (l₀ l : CheckLoop P) (a : Attempt) (message : String) (c₀ c : CheckHistory)
    (turns : List Instant) : Prop where
  alive : l.isDone = false
  /-- The fifth turn records the failure, of a check that the first one has ended. -/
  recorded : c.records[c₀.records.length]? =
    turns[4]?.map (.ofPanic message a.started (turns.headD 0))
  /-- It counts as a failure. -/
  counted : 5 ≤ turns.length → c.launches = c₀.launches →
    l.state.verdict = Verdict.ofPanic message ∧
      l.state.tracker = (l₀.state.tracker.record false).2
  /-- Behind the seventh turn, the first that is not before the next tick launches a probe. -/
  launched : c.launches[c₀.launches.length]? =
    (turns.drop 7).find? (a.nextTick.getD (turns.getD 6 0 + l₀.plan.interval.nanos) ≤ ·)

theorem Aftermath.getsOver (h : Aftermath l₀ a message c₀ c l turns) :
    l₀.GetsOver l a message c₀ c turns := by
  cases h with
  | fallen phase state records launches =>
    exact ⟨alive_of_probing phase, by simp [records], by simp, by simp [launches]⟩
  | @publishing ended ts p phase few left next verdict latency state records launches =>
    have hfourth : ts[3]? = none := List.getElem?_eq_none few
    refine ⟨alive_of_publishing phase, ?_, fun many => ?_, ?_⟩
    · simp [records, hfourth]
    · simp only [List.length_cons] at many
      omega
    · rw [List.drop_eq_nil_of_le (by simp; omega), launches]
      simp
  | @published ended moment ts p phase many few left next fourth fails =>
    refine ⟨alive_of_publishing phase, ?_, fun _ _ => ⟨fails.verdict, fails.tracker⟩, ?_⟩
    · simp [fails.records, fourth]
    · rw [List.drop_eq_nil_of_le (by simp; omega), fails.launches]
      simp
  | @waiting ended moment rest due ts phase fourth sixth tick early fails =>
    refine ⟨by rw [isDone, phase], ?_, fun _ _ => ⟨fails.verdict, fails.tracker⟩, ?_⟩
    · simp [fails.records, fourth]
    · have hnone : (ts.drop 6).find? (due ≤ ·) = none := by
        rw [List.find?_eq_none]
        exact fun t ht => by simpa using early t ht
      simp [fails.launches, sixth, ← tick, hnone]
  | @launched ended moment rest due t ts alive fourth sixth tick late records launches =>
    refine ⟨alive, ?_, fun _ hsame => ?_, ?_⟩
    · obtain ⟨more, hmore⟩ := records
      simp [← hmore, fourth]
    · have hlength := launches.length_le
      simp only [hsame, List.length_append, List.length_singleton] at hlength
      omega
    · obtain ⟨more, hmore⟩ := launches
      simp [← hmore, sixth, ← tick, late]

end CheckLoop

namespace Scheduler

variable {P : Type}

/-- The instants at which a loop has been given a turn in a past. -/
def turns (past : List (Scheduler P × Move P)) (i : Nat) : List Instant :=
  (past.filter fun p => p.2.drives i).map fun p => p.1.now

theorem turns_concat (past : List (Scheduler P × Move P)) (s : Scheduler P) (m : Move P) (i : Nat) :
    turns (past ++ [(s, m)]) i = turns past i ++ if m.drives i then [s.now] else [] := by
  cases hdrives : m.drives i <;> simp [turns, hdrives]

/-- A loop that is not to end is where a panic has brought it. -/
structure Shaken (s : Scheduler P) (past : List (Scheduler P × Move P)) (i : Nat)
    (l₀ l : CheckLoop P) (a : Attempt) (message : String) (c₀ : CheckHistory) : Prop where
  plan : l.plan = l₀.plan
  usable : s.metrics.latencyUsable = true
  place : l.isCancelled s.now = false →
    l₀.Aftermath a message c₀ (s.checks past i) l (turns past i)

theorem Shaken.move {s : Scheduler P} {past : List (Scheduler P × Move P)} {i : Nat}
    {l₀ l : CheckLoop P} {a : Attempt} {message : String} {c₀ : CheckHistory}
    (h : s.Shaken past i l₀ l a message c₀) (hl : s.loops[i]? = some l) (m : Move P) :
    ∃ l', (s.move m).loops[i]? = some l' ∧
      (s.move m).Shaken (past ++ [(s, m)]) i l₀ l' a message c₀ := by
  have hm := effect_move s m
  obtain ⟨l', hl', hgo⟩ := hm.loopsGoOn.2 i l hl
  have hplan : l'.plan = l₀.plan := by
    rw [CheckLoop.plan, hgo.dependency, ← h.plan, CheckLoop.plan]
  refine ⟨l', hl', hplan, (latencyUsable_move s m).trans h.usable, fun going' => ?_⟩
  have going : l.isCancelled s.now = false := by
    rw [← Bool.not_eq_true]
    intro cancelled
    obtain ⟨k, hk, hcancelled⟩ := hm.cancelled hl cancelled
    obtain rfl := Option.some.inj (hk.symm.trans hl')
    simp [hcancelled] at going'
  have hplace := h.place going
  rw [turns_concat]
  by_cases hloop : m = .loop i
  · subst hloop
    rw [if_pos (Move.drives_iff.mpr rfl)]
    cases hq : l.step s.metrics s.now with
    | none =>
      rw [move_loop_of_stuck hl hq] at hl' ⊢
      obtain rfl := Option.some.inj (hl.symm.trans hl')
      rw [checks_concat _ fun _ => rfl]
      exact hplace.stuck going hq
    | some q =>
      obtain rfl := Option.some.inj ((getElem?_move_loop hl hq).symm.trans hl')
      rw [checks_of_driven hl hq]
      exact hplace.step h.plan going h.usable hq
  · rw [if_neg (mt Move.drives_iff.mp hloop), List.append_nil, checks_of_not_driven hloop]
    by_cases hending : ∃ ending, m = .ending i ending
    · obtain ⟨ending, rfl⟩ := hending
      have hnext : (s.move (.ending i ending)).loops[i]? = some (l.endProbe ending) := by
        rw [Scheduler.move, Scheduler.endProbe, modifyLoop, List.getElem?_modify_eq, hl]
        rfl
      obtain rfl := Option.some.inj (hnext.symm.trans hl')
      exact (hplace.endProbe ending).standBy rfl rfl rfl rfl
    · push Not at hending
      obtain ⟨k, hk, hstands⟩ := hm.standsBy hloop hl
      obtain rfl := Option.some.inj (hk.symm.trans hl')
      exact hplace.standBy (hm.phase hloop hending hl hl') hstands.state rfl rfl

/-- **A loop gets over a panic of its probe.** When the probe that a loop has launched panics, the
check is recorded once as a failure, with the verdict on the message of the panic, and unless the
loop is to end, it goes on and launches the next probe when the next tick has come. Whatever else
happens in the meantime does not matter, and neither does when the loop is given its turns. -/
theorem panic_survived (s : Scheduler P) (i : Nat) (l : CheckLoop P) (a : Attempt)
    (message : String) (after : List (Move P)) (usable : s.metrics.latencyUsable = true)
    (loop : s.loops[i]? = some l) (probing : l.phase = .probing a) (running : a.ending = none) :
    let panicked := s.move (.ending i (.panicked message))
    let s' := panicked.run after
    ∃ l', s'.loops[i]? = some l' ∧ (l'.isCancelled s'.now = false →
      l.GetsOver l' a message (s.checks [] i) (s'.checks (panicked.trace after) i)
        (turns (panicked.trace after) i)) := by
  intro panicked s'
  have hpanicked : panicked.loops[i]? =
      some { l with phase := .probing { a with ending := some (.panicked message) } } := by
    rw [show panicked = s.endProbe i (.panicked message) from rfl, Scheduler.endProbe, modifyLoop,
      List.getElem?_modify_eq, loop]
    simp [CheckLoop.endProbe, probing, running]
  have hshaken : ∃ l', s'.loops[i]? = some l' ∧
      s'.Shaken (panicked.trace after) i l l' a message (s.checks [] i) := by
    refine run_invariant (motive := fun past s' => ∃ l', s'.loops[i]? = some l' ∧
      s'.Shaken past i l l' a message (s.checks [] i)) ?_ ?_ after
    · refine ⟨_, hpanicked, rfl, (latencyUsable_move s _).trans usable, fun _ => ?_⟩
      exact .fallen rfl rfl rfl rfl
    · intro past s₁ m h
      obtain ⟨l', hl', h⟩ := h
      exact h.move hl' m
  obtain ⟨l', hl', h⟩ := hshaken
  exact ⟨l', hl', fun going => (h.place going).getsOver⟩

/-- A database is checked at once, and the check is still running after a second. -/
def beforePanic : List (Move Unit) :=
  [.register (database [Endpoint.plain "a" 1]) (), .start none, .loop 0, .clock 1000000000]

/-- The seven turns that the loop needs, and two more: one before the next tick, and one then. -/
def afterPanic : List (Move Unit) :=
  [List.replicate 7 (.loop 0), [.clock 15000000000, .loop 0, .clock 16000000000, .loop 0]].flatten

theorem outOfRange_survived :
    let s := newApp.run beforePanic
    let panicked := s.move (.ending 0 (.panicked "out of range"))
    let s' := panicked.run afterPanic
    (∃ l a l', (s.metrics.latencyUsable = true ∧ s.loops[0]? = some l ∧ l.phase = .probing a ∧
        a.ending = none) ∧ s'.loops[0]? = some l' ∧ l'.isCancelled s'.now = false ∧
      l.GetsOver l' a "out of range" (s.checks [] 0) (s'.checks (panicked.trace afterPanic) 0)
        (turns (panicked.trace afterPanic) 0)) ∧
    (s'.records 0).map (fun r => (r.moment, r.verdict, r.latency.nanos)) =
      [(1000000000, Verdict.error, 1000000000)] ∧
    (s'.checks (panicked.trace afterPanic) 0).launches = [0, 16000000000] := by
  intro s panicked s'
  have usable : s.metrics.latencyUsable = true := by decide +kernel
  obtain ⟨l, hl, hprobing⟩ := (Option.any_eq_true ..).mp
    (by decide +kernel : s.loops[0]?.any CheckLoop.isProbing = true)
  obtain ⟨a, ha, running⟩ : ∃ a, l.phase = .probing a ∧ a.ending = none := by
    unfold CheckLoop.isProbing at hprobing
    split at hprobing
    next a ha => exact ⟨a, ha, Option.isNone_iff_eq_none.mp hprobing⟩
    next => cases hprobing
  obtain ⟨l', hl', hover⟩ := panic_survived s 0 l a "out of range" afterPanic usable hl ha running
  have hgoing : s'.loops[0]?.all (fun l => !l.isCancelled s'.now) = true := by decide +kernel
  have going : l'.isCancelled s'.now = false := by
    rw [show s'.loops[0]? = some l' from hl'] at hgoing
    simpa using hgoing
  exact ⟨⟨l, a, l', ⟨usable, hl, ha, running⟩, hl', going, hover going⟩, by decide +kernel,
    by decide +kernel⟩

/-- What the database is recorded as when its check panics. -/
def panicVerdicts (message : String) : List Verdict :=
  let moves := beforePanic ++ .ending 0 (.panicked message) :: afterPanic
  ((newApp.run moves).records 0).map Record.verdict

/-- A panic that mentions a handshake is not recorded as the plain error. -/
theorem panic_taken_for_handshake : ¬ ∀ message, panicVerdicts message = [Verdict.error] := by
  intro plain
  have htaken : panicVerdicts "exploded at tls.svc" = [Verdict.tls] := by decide +kernel
  exact absurd (htaken.symm.trans (plain "exploded at tls.svc")) (by decide)

end Scheduler

end HealthMonitor
