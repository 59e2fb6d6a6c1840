import HealthMonitor.Proofs.Health.History
import HealthMonitor.Proofs.Scheduler.Touches

/-!
# What a loop makes of its attempts

The attempts that a loop has completed in a run determine what it knows and what it has told the
exporter. `CheckLoop.Follows` says how: at rest its state and what it has published are those of all
its outcomes; while it publishes, the places that are left are still those of the outcomes before
the last. `followed_run` proves it of every loop of every run, whatever the other loops, the probes
and the clients do.
-/

namespace HealthMonitor

/-- What has been published while some places of the last check are left. -/
def Published.partly (left : List Place) (before after : Published) : Published where
  latencies := if .latency ∈ left then before.latencies else after.latencies
  category := if .status ∈ left then before.category else after.category
  detail := if .detail ∈ left then before.detail else after.detail
  health := if .health ∈ left then before.health else after.health

namespace CheckLoop

variable {P : Type}

/-- A loop follows its outcomes: its state and what has been published are what these lead to, but
for what is still being published. Only an exporter without a usable latency family breaks a loop
down. -/
inductive Follows (l : CheckLoop P) (usable : Bool) : List Outcome → Published → Prop where
  | resting {outcomes : List Outcome} (quiet : l.isPublishing = false)
      (state : l.state.Reflects l.plan outcomes) :
      Follows l usable outcomes (.ofOutcomes l.plan outcomes)
  | publishing {before : List Outcome} {o : Outcome} {p : Publication}
      (phase : l.phase = .publishing p) (left : p.left <:+ places)
      (verdict : p.verdict = Verdict.ofOutcome o) (positive : 0 < p.latency.nanos)
      (state : l.state.Reflects l.plan (if .state ∈ p.left then before else before ++ [o])) :
      Follows l usable (before ++ [o])
        (.partly p.left (.ofOutcomes l.plan before) (.ofOutcomes l.plan (before ++ [o])))
  | broken {before : List Outcome} {o : Outcome} (unusable : usable = false)
      (phase : l.phase = .broken) (state : l.state.Reflects l.plan before) :
      Follows l usable (before ++ [o]) (.ofOutcomes l.plan before)

/-- A new loop has no outcomes and has published nothing. -/
theorem follows_spawn (d : Dependency) (e : Endpoint) (probe : P) (outer : Option Instant)
    (usable : Bool) : (spawn d e probe outer).Follows usable [] .nothing :=
  .resting rfl (EndpointState.reflects_fresh d.plan)

/-- What is left after a place of a publication that writes to its places in order. -/
private theorem left_cases {place : Place} {rest : List Place} (h : place :: rest <:+ places) :
    place = .latency ∧ rest = [.status, .detail, .state, .health] ∨
      place = .status ∧ rest = [.detail, .state, .health] ∨
      place = .detail ∧ rest = [.state, .health] ∨
      place = .state ∧ rest = [.health] ∨ place = .health ∧ rest = [] := by
  simpa [places, List.suffix_cons_iff] using h

/-- A loop that is to end completes no attempt. -/
theorem completion?_of_cancelled {l : CheckLoop P} {now : Instant} (h : l.isCancelled now = true) :
    l.completion? now = none := by
  unfold completion?
  split
  · simp [h]
  · rfl

theorem completion?_of_resting {l : CheckLoop P} {now : Instant} (h : l.isResting = true) :
    l.completion? now = none := by
  unfold isResting at h
  unfold completion?
  split at h <;> simp_all

theorem completion?_of_publishing {l : CheckLoop P} {p : Publication} (h : l.phase = .publishing p)
    (now : Instant) : l.completion? now = none := by
  simp [completion?, h]

/-- A loop that can take no step completes no attempt. -/
theorem completion?_of_stuck {l : CheckLoop P} {x : Exporter} {now : Instant}
    (h : l.step x now = none) : l.completion? now = none := by
  cases hphase : l.phase with
  | probing a =>
    simp only [step, hphase] at h
    simp only [completion?, hphase]
    by_cases going : l.isCancelled now = true
    · exact if_pos going
    · rw [if_neg going] at h ⊢
      cases hending : a.ending with
      | some ending => simp [hending] at h
      | none =>
        by_cases late : a.deadline ≤ now
        · simp [hending, late] at h
        · exact if_neg late
  | spawned | delaying | publishing | waiting | finished | broken => simp [completion?, hphase]

/-- A loop that neither publishes nor is broken down has published what its outcomes lead to. -/
theorem Follows.of_resting {l : CheckLoop P} {usable : Bool} {outcomes : List Outcome}
    {pub : Published} (h : l.Follows usable outcomes pub) (quiet : l.isPublishing = false)
    (alive : l.isDone = false) :
    l.state.Reflects l.plan outcomes ∧ pub = .ofOutcomes l.plan outcomes := by
  cases h with
  | resting _ state => exact ⟨state, rfl⟩
  | publishing phase => simp [isPublishing, phase] at quiet
  | broken _ phase => simp [isDone, phase] at alive

/-- At rest a loop has taken in all its outcomes and published what they lead to. -/
theorem Follows.at_rest {l : CheckLoop P} {outcomes : List Outcome} {pub : Published}
    (h : l.Follows true outcomes pub) (quiet : l.isPublishing = false) :
    l.state.Reflects l.plan outcomes ∧ pub = .ofOutcomes l.plan outcomes := by
  cases h with
  | resting _ state => exact ⟨state, rfl⟩
  | publishing phase => simp [isPublishing, phase] at quiet
  | broken unusable => cases unusable

/-- A loop that publishes follows its outcomes if its state has the last one just when that is
written. -/
private theorem Follows.publishes {l : CheckLoop P} {usable : Bool} {p : Publication}
    {before recorded : List Outcome} {o : Outcome} {pub : Published}
    (phase : l.phase = .publishing p) (left : p.left <:+ places)
    (verdict : p.verdict = Verdict.ofOutcome o) (positive : 0 < p.latency.nanos)
    (state : l.state.Reflects l.plan recorded)
    (hrecorded : recorded = if .state ∈ p.left then before else before ++ [o])
    (hpub : pub = .partly p.left (.ofOutcomes l.plan before) (.ofOutcomes l.plan (before ++ [o]))) :
    l.Follows usable (before ++ [o]) pub := by
  subst hrecorded hpub
  exact .publishing phase left verdict positive state

/-- Each write of a publication takes in one more of what the last outcome leads to. -/
private theorem Follows.wrote {l : CheckLoop P} {x : Exporter} {now : Instant} {q : Progress P}
    {p : Publication} {place : Place} {rest : List Place} {before : List Outcome} {o : Outcome}
    (phase : l.phase = .publishing p) (next : p.left = place :: rest)
    (write : l.write? x now { p with left := rest } place = some q) (left : p.left <:+ places)
    (verdict : p.verdict = Verdict.ofOutcome o) (positive : 0 < p.latency.nanos)
    (state : l.state.Reflects l.plan (if .state ∈ p.left then before else before ++ [o])) :
    q.loop.Follows x.latencyUsable (before ++ [o])
      ((l.writing? x).elim
        (.partly p.left (.ofOutcomes l.plan before) (.ofOutcomes l.plan (before ++ [o])))
        (Published.partly p.left (.ofOutcomes l.plan before)
          (.ofOutcomes l.plan (before ++ [o]))).after) := by
  rw [next] at left state ⊢
  have hrest : rest <:+ places := (List.suffix_cons place rest).trans left
  -- the places in order; up to the fourth, the loop's own state, it still reflects the outcomes
  -- before the last
  rcases left_cases left with ⟨rfl, rfl⟩ | ⟨rfl, rfl⟩ | ⟨rfl, rfl⟩ | ⟨rfl, rfl⟩ | ⟨rfl, rfl⟩
  · rw [if_pos (by decide)] at state
    rw [write?, Exporter.observeLatency?_eq] at write
    split at write
    next usable =>
      cases write
      simp only [writing?, phase, next, usable, if_true, Option.elim_some]
      exact .publishes rfl hrest verdict positive state (by simp)
        (by simp [Published.partly, Published.after, Published.ofOutcomes, moveTo, plan])
    next => cases write
  · rw [if_pos (by decide)] at state
    cases write
    simp only [writing?, phase, next, Option.elim_some]
    exact .publishes rfl hrest verdict positive state (by simp)
      (by simp [Published.partly, Published.after, Published.ofOutcomes, verdict, moveTo, plan])
  · rw [if_pos (by decide)] at state
    cases write
    simp only [writing?, phase, next, Option.elim_some]
    exact .publishes rfl hrest verdict positive state (by simp)
      (by simp [Published.partly, Published.after, Published.ofOutcomes, verdict, moveTo, plan])
  · rw [if_pos (by decide)] at state
    cases write
    simp only [writing?, phase, next, Option.elim_none]
    have hstate : (l.state.record p.verdict p.latency
        ⟨(now / 1000000000 : Nat), now % 1000000000⟩).2.Reflects l.plan (before ++ [o]) :=
      verdict ▸ state.record o positive _
    exact .publishes rfl hrest verdict positive hstate (by simp) (by
      simp [Published.partly, Published.ofOutcomes, plan])
  · rw [if_neg (by decide)] at state
    cases write
    simp only [writing?, phase, next, Option.elim_some]
    obtain ⟨healthy, hhealthy⟩ := Option.isSome_iff_exists.mp
      (Tracker.ofOutcomes_healthy_isSome l.dependency.plan before o)
    exact .publishes rfl hrest verdict positive state (by simp) (by
      simp [Published.partly, Published.after, Published.ofOutcomes, state.tracker, hhealthy,
        moveTo, plan])

/-- A loop that breaks down has published nothing of its last outcome: it does so at the first
place. -/
private theorem Follows.broke {l : CheckLoop P} {x : Exporter} {now : Instant}
    {p : Publication} {place : Place} {rest : List Place} {before : List Outcome} {o : Outcome}
    (phase : l.phase = .publishing p) (next : p.left = place :: rest)
    (write : l.write? x now { p with left := rest } place = none) (left : p.left <:+ places)
    (state : l.state.Reflects l.plan (if .state ∈ p.left then before else before ++ [o])) :
    (l.moveTo x .broken).loop.Follows x.latencyUsable (before ++ [o])
      ((l.writing? x).elim
        (.partly p.left (.ofOutcomes l.plan before) (.ofOutcomes l.plan (before ++ [o])))
        (Published.partly p.left (.ofOutcomes l.plan before)
          (.ofOutcomes l.plan (before ++ [o]))).after) := by
  rw [next] at left state ⊢
  cases place with
  | latency =>
    rw [write?, Exporter.observeLatency?_eq] at write
    split at write
    next => cases write
    next unusable =>
      obtain rfl : rest = [.status, .detail, .state, .health] := by simpa using left_cases left
      rw [if_pos (by decide)] at state
      simp only [writing?, phase, next, unusable]
      exact .broken rfl rfl state
  | status | detail | state | health => cases write

/-- What a publishing loop follows. -/
theorem Follows.of_publishing {l : CheckLoop P} {usable : Bool} {outcomes : List Outcome}
    {pub : Published} {p : Publication} (h : l.Follows usable outcomes pub)
    (phase : l.phase = .publishing p) :
    ∃ before o, outcomes = before ++ [o] ∧
      pub = .partly p.left (.ofOutcomes l.plan before) (.ofOutcomes l.plan (before ++ [o])) ∧
      p.left <:+ places ∧ p.verdict = Verdict.ofOutcome o ∧ 0 < p.latency.nanos ∧
      l.state.Reflects l.plan (if .state ∈ p.left then before else before ++ [o]) := by
  cases h with
  | resting quiet => simp [isPublishing, phase] at quiet
  | @publishing before o p' phase' left verdict positive state =>
    obtain rfl : p' = p := Phase.publishing.inj (phase'.symm.trans phase)
    exact ⟨before, o, rfl, rfl, left, verdict, positive, state⟩
  | broken _ phase' => simp [phase] at phase'

/-- A loop that rests, or whose attempt is given up, goes on with what it has. -/
private theorem Follows.idles {l : CheckLoop P} {x : Exporter} {now : Instant}
    {outcomes : List Outcome} {pub : Published} (h : l.Follows x.latencyUsable outcomes pub)
    (busy : l.isPublishing = false) (alive : l.isDone = false)
    (incomplete : l.completion? now = none) {phase : Phase}
    (quiet : ({ l with phase := phase } : CheckLoop P).isPublishing = false) :
    ({ l with phase := phase } : CheckLoop P).Follows x.latencyUsable
      (outcomes ++ (l.completion? now).toList) ((l.writing? x).elim pub pub.after) := by
  obtain ⟨state, rfl⟩ := h.of_resting busy alive
  rw [incomplete, writing?_of_not_publishing busy, Option.toList_none, List.append_nil]
  exact .resting quiet state

/-- **Every step of a loop follows its outcomes.** -/
theorem Follows.step {l : CheckLoop P} {x : Exporter} {now : Instant} {q : Progress P}
    {outcomes : List Outcome} {pub : Published} (h : l.Follows x.latencyUsable outcomes pub)
    (hs : Stepped l x now q) :
    q.loop.Follows x.latencyUsable (outcomes ++ (l.completion? now).toList)
      ((l.writing? x).elim pub pub.after) := by
  cases hs with
  | ended busy alive cancelled =>
    exact h.idles busy alive (completion?_of_cancelled cancelled) rfl
  | delayed due spawned =>
    have resting : l.isResting = true := by simp [isResting, spawned]
    exact h.idles (not_publishing_of_resting resting) (alive_of_resting resting)
      (completion?_of_resting resting) rfl
  | launched nextTick resting going =>
    exact h.idles (not_publishing_of_resting resting) (alive_of_resting resting)
      (completion?_of_resting resting) rfl
  | @completed a o lines probing complete =>
    have busy : l.isPublishing = false := by simp [isPublishing, probing]
    obtain ⟨state, rfl⟩ := h.of_resting busy (alive_of_probing probing)
    rw [complete, writing?_of_not_publishing busy, Option.toList_some]
    -- nothing of the new outcome has been published yet
    have hall : Published.partly places (.ofOutcomes l.plan outcomes)
        (.ofOutcomes l.plan (outcomes ++ [o])) = .ofOutcomes l.plan outcomes := rfl
    rw [Option.elim_none, ← hall]
    refine .publishing (p := ⟨o, _, ⟨max (now - a.started) 1⟩, places, _, _⟩) rfl
      List.suffix_rfl rfl (Nat.le_max_right _ _) ?_
    rwa [if_pos (by simp [places])]
  | wrote phase next write =>
    rw [completion?_of_publishing phase, Option.toList_none, List.append_nil]
    obtain ⟨before, o, rfl, rfl, left, verdict, positive, state⟩ := h.of_publishing phase
    exact Follows.wrote phase next write left verdict positive state
  | broke phase next write =>
    rw [completion?_of_publishing phase, Option.toList_none, List.append_nil]
    obtain ⟨before, o, rfl, rfl, left, -, -, state⟩ := h.of_publishing phase
    exact Follows.broke phase next write left state
  | rested due phase last =>
    rw [completion?_of_publishing phase, Option.toList_none, List.append_nil]
    obtain ⟨before, o, rfl, rfl, -, -, -, state⟩ := h.of_publishing phase
    simp only [writing?, phase, last, Option.elim_none]
    rw [last] at state
    exact .resting rfl state

end CheckLoop

namespace Scheduler

variable {P : Type}

/-- The outcome of the attempt that a move completes for a loop, if it completes one. -/
def completed? (s : Scheduler P) (i : Nat) : Move P → Option Outcome
  | .loop j => if j = i then s.loops[i]?.bind fun l => l.completion? s.now else none
  | _ => none

/-- The outcomes of the attempts that a loop has completed in a past, in order. -/
def outcomes (past : List (Scheduler P × Move P)) (i : Nat) : List Outcome :=
  past.filterMap fun p => p.1.completed? i p.2

/-- What the touches of a past have published for a loop. -/
def published (past : List (Scheduler P × Move P)) (i : Nat) : Published :=
  (touches past).foldl (fun p t => if t.loop = i then p.after t.change else p) .nothing

theorem outcomes_concat (past : List (Scheduler P × Move P)) (s : Scheduler P) (m : Move P)
    (i : Nat) : outcomes (past ++ [(s, m)]) i = outcomes past i ++ (s.completed? i m).toList := by
  rw [outcomes, List.filterMap_append, ← outcomes]
  cases h : s.completed? i m <;> simp [h]

/-- What a past has published goes on with what the next move writes. -/
theorem published_concat (past : List (Scheduler P × Move P)) (s : Scheduler P) (m : Move P)
    (i : Nat) : published (past ++ [(s, m)]) i =
      (s.touch? m).elim (published past i) fun t =>
        if t.loop = i then (published past i).after t.change else published past i := by
  rw [published, touches_concat, List.foldl_append, ← published]
  cases s.touch? m <;> rfl

/-- Every loop follows the outcomes of its attempts; one that is not there yet has none. -/
def Followed (past : List (Scheduler P × Move P)) (s : Scheduler P) : Prop :=
  ∀ i, s.loops[i]?.elim (outcomes past i = [] ∧ published past i = .nothing) fun l =>
    l.Follows s.metrics.latencyUsable (outcomes past i) (published past i)

theorem Followed.get {past : List (Scheduler P × Move P)} {s : Scheduler P} (h : Followed past s)
    {i : Nat} {l : CheckLoop P} (hl : s.loops[i]? = some l) :
    l.Follows s.metrics.latencyUsable (outcomes past i) (published past i) := by
  have := h i
  rwa [hl] at this

/-- A loop that stands by follows the same outcomes. -/
private theorem follows_of_standsBy {l l' : CheckLoop P} (hstands : StandsBy l l') {usable : Bool}
    {os : List Outcome} {pub : Published} (h : l.Follows usable os pub) :
    l'.Follows usable os pub := by
  have hplan : l'.plan = l.plan := by rw [CheckLoop.plan, hstands.dependency, CheckLoop.plan]
  cases h with
  | resting quiet state =>
    have quiet' : l'.isPublishing = false := hstands.isPublishing.trans quiet
    exact hplan ▸ .resting quiet' (by rwa [hstands.state, hplan])
  | publishing phase left verdict positive state =>
    exact hplan ▸ .publishing ((hstands.publishing _).mpr phase) left verdict positive
      (by rwa [hstands.state, hplan])
  | broken unusable phase state =>
    exact hplan ▸ .broken unusable (hstands.broken.mpr phase) (by rwa [hstands.state, hplan])

/-- A move that does not drive a loop completes nothing for it. -/
theorem completed?_of_not_driven {s : Scheduler P} {m : Move P} {i : Nat} (hm : m ≠ .loop i) :
    s.completed? i m = none := by
  cases m with
  | loop j => exact if_neg fun h => hm (by rw [h])
  | register | start | stop | add | remove | update | call | ending | clock => rfl

/-- Nor does it publish anything for it. -/
private theorem quiet_of_not_driven {s : Scheduler P} {m : Move P} {i : Nat} (hm : m ≠ .loop i)
    (past : List (Scheduler P × Move P)) :
    outcomes (past ++ [(s, m)]) i = outcomes past i ∧
      published (past ++ [(s, m)]) i = published past i := by
  rw [outcomes_concat, published_concat, completed?_of_not_driven hm, Option.toList_none,
    List.append_nil]
  refine ⟨rfl, ?_⟩
  cases ht : s.touch? m with
  | none => rfl
  | some t =>
    obtain ⟨l, hl, -, ⟨hloop, -⟩ | ⟨place, hplace, -⟩⟩ := touch?_some ht
    · have hti : t.loop ≠ i := fun h => hm (by rw [hloop, h])
      simp [hti]
    · simp [hplace, Published.after]

/-- The step of a loop keeps the loop following its outcomes. -/
private theorem Followed.driven {past : List (Scheduler P × Move P)} {s : Scheduler P}
    (h : Followed past s) {i : Nat} {l : CheckLoop P} (hl : s.loops[i]? = some l) :
    ∃ l', (s.move (.loop i)).loops[i]? = some l' ∧
      l'.Follows s.metrics.latencyUsable (outcomes (past ++ [(s, Move.loop i)]) i)
        (published (past ++ [(s, Move.loop i)]) i) := by
  have hcompleted : s.completed? i (.loop i) = l.completion? s.now := by simp [completed?, hl]
  have hpublished : published (past ++ [(s, Move.loop i)]) i =
      (l.writing? s.metrics).elim (published past i) (published past i).after := by
    rw [published_concat]
    cases hw : l.writing? s.metrics <;> simp [touch?, hl, hw]
  rw [outcomes_concat, hpublished, hcompleted]
  cases hq : l.step s.metrics s.now with
  | none =>
    have hstay : s.move (.loop i) = s := move_loop_of_stuck hl hq
    have hcompletion : l.completion? s.now = none := CheckLoop.completion?_of_stuck hq
    rw [hstay, hcompletion, CheckLoop.writing?_of_stuck hq, Option.toList_none, List.append_nil]
    exact ⟨l, hl, h.get hl⟩
  | some q =>
    exact ⟨q.loop, getElem?_move_loop hl hq, (h.get hl).step (CheckLoop.stepped_of_step hq)⟩

/-- **Every loop of every run follows its outcomes.** -/
theorem followed_run (x : Exporter) (defaults : CheckPlan) (ms : List (Move P)) :
    Followed ((fresh x defaults).trace ms) ((fresh x defaults).run ms) := by
  refine run_invariant (motive := Followed) (fun i => ?_) (fun past s m h i => ?_) ms
  · exact ⟨rfl, rfl⟩
  have heffect := effect_move s m
  rw [latencyUsable_move]
  cases hl : s.loops[i]? with
  | none =>
    have hlength : s.loops.length ≤ i := List.getElem?_eq_none_iff.mp hl
    have hnothing : outcomes past i = [] ∧ published past i = .nothing := by
      have := h i
      rwa [hl] at this
    have hsame : outcomes (past ++ [(s, m)]) i = [] ∧
        published (past ++ [(s, m)]) i = .nothing := by
      by_cases hm : m = .loop i
      · subst hm
        rw [outcomes_concat, published_concat]
        simpa [completed?, touch?, hl] using hnothing
      · obtain ⟨houtcomes, hpublished⟩ := quiet_of_not_driven (s := s) hm past
        exact ⟨houtcomes.trans hnothing.1, hpublished.trans hnothing.2⟩
    cases hl' : (s.move m).loops[i]? with
    | none => exact hsame
    | some l' =>
      obtain ⟨d, e, probe, outer, rfl⟩ := heffect.spawned hlength hl'
      rw [Option.elim_some, hsame.1, hsame.2]
      exact CheckLoop.follows_spawn ..
  | some l =>
    by_cases hm : m = .loop i
    · subst hm
      obtain ⟨l', hl', hfollows⟩ := h.driven hl
      rw [hl']
      exact hfollows
    · obtain ⟨l', hl', hstands⟩ := heffect.standsBy hm hl
      obtain ⟨houtcomes, hpublished⟩ := quiet_of_not_driven (s := s) hm past
      rw [hl', Option.elim_some, houtcomes, hpublished]
      exact follows_of_standsBy hstands (h.get hl)

end Scheduler

end HealthMonitor
