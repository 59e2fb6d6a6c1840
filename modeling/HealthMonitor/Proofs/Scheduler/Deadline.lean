import HealthMonitor.Proofs.Scheduler.Attempts
import HealthMonitor.Proofs.Scheduler.Journal

/-!
# Outer deadlines

A scheduler that is started with an outer deadline gives it to each loop of that start. Such a loop
launches no probe at or after the deadline and none that may run longer, completes no check then,
and is over as soon as it has done what is due (`EndsBy`). What is due comes to an end:
`CheckLoop.stepsLeft` counts the steps that are left of a loop that is to end, and goes down with
each of them.

The deadline stays with the loops of the start. One that is added later, or put in the place of
another, has none (`outer_deadline_ends`), and goes on after it (`latecomers_outlive_deadline`).
-/

namespace HealthMonitor

namespace CheckLoop

variable {P : Type}

/-- From its outer deadline on a loop is to end. -/
theorem isCancelled_of_outer {l : CheckLoop P} {d now : Instant} (outer : l.outer = some d)
    (late : d ≤ now) : l.isCancelled now = true := by
  simp [isCancelled, outer, late]

/-- As long as a loop is not to end, its outer deadline has not come. -/
theorem before_of_going {l : CheckLoop P} {d now : Instant} (outer : l.outer = some d)
    (going : l.isCancelled now = false) : now < d := by
  by_contra late
  simp [isCancelled_of_outer outer (Nat.le_of_not_lt late)] at going

/-- No probe is given more time than there is until the outer deadline. -/
theorem deadlineFrom_le {l : CheckLoop P} {d : Instant} (outer : l.outer = some d)
    (now : Instant) : l.deadlineFrom now ≤ d := by
  rw [deadlineFrom, outer]
  exact Nat.min_le_right ..

/-- A loop that is to end completes no attempt. -/
theorem going_of_completion {l : CheckLoop P} {now : Instant} {o : Outcome}
    (h : l.completion? now = some o) : l.isCancelled now = false := by
  by_contra cancelled
  rw [completion?_of_cancelled (by simpa using cancelled)] at h
  cases h

/-! ### A loop that is to end -/

/-- How many steps a loop takes at most once it is to end: what it is publishing it publishes, and
then it ends. -/
def stepsLeft (l : CheckLoop P) : Nat :=
  match l.phase with
  | .finished | .broken => 0
  | .publishing p => p.left.length + 2
  | .spawned | .delaying _ | .probing _ | .waiting _ => 1

theorem isDone_of_stepsLeft {l : CheckLoop P} (h : l.stepsLeft = 0) : l.isDone = true := by
  unfold stepsLeft at h
  unfold isDone
  split at h <;> simp_all

theorem stepsLeft_of_isDone {l : CheckLoop P} (h : l.isDone = true) : l.stepsLeft = 0 := by
  unfold isDone at h
  unfold stepsLeft
  split at h <;> simp_all

theorem stepsLeft_pos {l : CheckLoop P} (alive : l.isDone = false) : 0 < l.stepsLeft := by
  refine Nat.pos_of_ne_zero fun h => ?_
  simp [isDone_of_stepsLeft h] at alive

@[simp] theorem stepsLeft_signal (l : CheckLoop P) : l.signal.stepsLeft = l.stepsLeft := rfl

@[simp] theorem stepsLeft_endProbe (l : CheckLoop P) (ending : ProbeEnd) :
    (l.endProbe ending).stepsLeft = l.stepsLeft := by
  rcases l.endProbe_cases ending with h | ⟨a, ha, h⟩
  · rw [h]
  · simp [h, stepsLeft, ha]

/-- **Each step of a loop that is to end brings it nearer to its end.** -/
theorem Stepped.stepsLeft_lt {l : CheckLoop P} {x : Exporter} {now : Instant} {q : Progress P}
    (h : Stepped l x now q) (cancelled : l.isCancelled now = true) :
    q.loop.stepsLeft < l.stepsLeft := by
  cases h with
  | ended _ alive _ => exact stepsLeft_pos alive
  | delayed _ _ going => simp [cancelled] at going
  | launched _ _ going => simp [cancelled] at going
  | completed _ _ complete => simp [going_of_completion complete] at cancelled
  | @wrote p place rest q publishing next write =>
    obtain ⟨state, transition, hq⟩ := write?_some write
    simp [hq, stepsLeft, publishing, next]
  | broke publishing => simp [stepsLeft, publishing, moveTo]
  | rested _ publishing => simp [stepsLeft, publishing]

/-- A loop that is to end can take a step until it is over. -/
theorem isDone_of_stuck {l : CheckLoop P} {x : Exporter} {now : Instant}
    (cancelled : l.isCancelled now = true) (stuck : l.step x now = none) : l.isDone = true := by
  cases hl : l.phase with
  | spawned =>
    simp only [step, hl, cancelled, if_true] at stuck
    split at stuck <;> cases stuck
  | delaying | probing | waiting => simp [step, hl, cancelled] at stuck
  | publishing => simp [step, hl] at stuck
  | finished | broken => simp [isDone, hl]

/-- A loop has at most five places left to write to. -/
theorem Follows.stepsLeft_le {l : CheckLoop P} {usable : Bool} {outcomes : List Outcome}
    {pub : Published} (h : l.Follows usable outcomes pub) : l.stepsLeft ≤ 7 := by
  unfold stepsLeft
  split
  · exact Nat.zero_le _
  · exact Nat.zero_le _
  next p hp =>
    cases h with
    | resting quiet => simp [isPublishing, hp] at quiet
    | publishing phase left =>
      obtain rfl := Phase.publishing.inj (phase.symm.trans hp)
      have := left.length_le
      simp only [places, List.length_cons, List.length_nil] at this
      omega
    | broken _ phase => simp [phase] at hp
  all_goals exact Nat.le_add_left 1 6

end CheckLoop

/-- Whether a move lets a loop take its next step. -/
def Move.drives {P : Type} (i : Nat) : Move P → Bool
  | .loop j => j == i
  | _ => false

theorem Move.drives_iff {P : Type} {i : Nat} {m : Move P} : m.drives i = true ↔ m = .loop i := by
  cases m with
  | loop j => simp [drives]
  | register | start | stop | add | remove | update | call | ending | clock => simp [drives]

/-- Whether a move is a call that may bring a new endpoint into service while running. -/
def Move.opens {P : Type} : Move P → Bool
  | .add .. | .update .. => true
  | _ => false

namespace Scheduler

variable {P : Type}

/-! ### The clock -/

/-- Calls take no time. -/
theorem advance_now {s s' : Scheduler P} {c : Call} {after : Option Call}
    (h : Advance s c s' after) : s'.now = s.now := by
  obtain ⟨_, _, _, _, rfl⟩ := advance_eq h
  rfl

/-- Time passes by the moves of the clock only, which cannot be put back. -/
theorem now_of_effect {s s' : Scheduler P} {m : Move P} (h : Effect s m s') :
    s'.now = s.now ∨ ∃ t, m = .clock t ∧ s'.now = max s.now t := by
  cases h with
  | started =>
    left
    rw [begun, serveAll_frame]
    rfl
  | told =>
    left
    rw [tell_frame]
  | called _ advance =>
    have hnow := advance_now advance
    exact Or.inl hnow
  | passed t => exact Or.inr ⟨t, rfl, rfl⟩
  | none | registered | added | removed | replaced | stepped | ended => exact Or.inl rfl

/-- No move puts the clock back. -/
theorem now_le_of_effect {s s' : Scheduler P} {m : Move P} (h : Effect s m s') :
    s.now ≤ s'.now := by
  rcases now_of_effect h with h | ⟨t, -, h⟩
  · exact Nat.le_of_eq h.symm
  · rw [h]
    exact Nat.le_max_left ..

/-- No time passes while a loop publishes a check. -/
def PublishesAtOnce (past : List (Scheduler P × Move P)) : Prop :=
  ∀ p ∈ past, ∀ t, p.2 = .clock t → p.1.now < t → ∀ l ∈ p.1.loops, l.isPublishing = false

/-! ### Loops that come later -/

/-- A loop that is spawned after the start has been added or put in the place of another, and has no
outer deadline. -/
theorem opened_run {s : Scheduler P} (started : s.lifecycle ≠ .idle) {ms : List (Move P)} {i : Nat}
    {l : CheckLoop P} (later : s.loops.length ≤ i) (hl : (s.run ms).loops[i]? = some l) :
    l.outer = none ∧ ∃ m ∈ ms, m.opens = true := by
  induction ms generalizing s with
  | nil => exact absurd (List.getElem?_eq_some_iff.mp hl).1 (Nat.not_lt.mpr later)
  | cons m ms ih =>
    have hm := effect_move s m
    rw [run_cons] at hl
    by_cases hthere : i < (s.move m).loops.length
    · -- the loop is spawned by this very move, and goes on as it is
      have hl' := List.getElem?_eq_getElem hthere
      generalize (s.move m).loops[i] = l' at hl'
      obtain ⟨k, hk, hgo⟩ := (loopsGoOn_run (s.move m) ms).2 i l' hl'
      obtain rfl := Option.some.inj (hk.symm.trans hl)
      cases hm.new later hl' with
      | started _ idle => exact absurd idle started
      | added | replaced => exact ⟨hgo.outer, _, List.mem_cons_self, rfl⟩
    · obtain ⟨houter, m', hm', hopens⟩ :=
        ih (not_idle_of_effect hm started) (Nat.le_of_not_lt hthere) hl
      exact ⟨houter, m', List.mem_cons_of_mem _ hm', hopens⟩

/-! ### Loops with an outer deadline -/

/-- A loop keeps to an outer deadline: it is there, and whatever it launches it launches before the
deadline and gives it no longer. -/
structure KeepsTo (s : Scheduler P) (d : Instant) (i : Nat) : Prop where
  outer : ∃ l, s.loops[i]? = some l ∧ l.outer = some d
  launched : ∀ p ∈ s.launches i, p.1 < d ∧ p.2 ≤ d

theorem KeepsTo.get {s : Scheduler P} {d : Instant} {i : Nat} (h : s.KeepsTo d i)
    {l : CheckLoop P} (hl : s.loops[i]? = some l) : l.outer = some d := by
  obtain ⟨l', hl', houter⟩ := h.outer
  rwa [Option.some.inj (hl.symm.trans hl')]

/-- A loop keeps to its deadline through a move. What it launches by this move it launches before
the deadline, as it would end otherwise. -/
theorem KeepsTo.move {s s' : Scheduler P} {m : Move P} {d : Instant} {i : Nat}
    (h : s.KeepsTo d i) (hm : Effect s m s') : s'.KeepsTo d i := by
  refine ⟨?_, fun p hp => ?_⟩
  · obtain ⟨l, hl, houter⟩ := h.outer
    obtain ⟨l', hl', hgo⟩ := hm.loopsGoOn.2 i l hl
    exact ⟨l', hl', hgo.outer.trans houter⟩
  · obtain ⟨event, hmem, hdeadline⟩ := mem_launches.mp hp
    rcases mem_happened_of_effect hm hmem with hold | ⟨-, hnow, l, q, hl, hstep, hevent⟩
    · exact h.launched p (mem_launches.mpr ⟨event, hold, hdeadline⟩)
    · -- the launch of this step: the loop was not to end yet, and set the deadline itself
      obtain ⟨going, hfrom⟩ := hstep.launches hevent hdeadline
      have houter : l.outer = some d := h.get hl
      rw [show p.1 = s.now from hnow, hfrom]
      exact ⟨CheckLoop.before_of_going houter going, CheckLoop.deadlineFrom_le houter _⟩

/-- The loops of a start have just been spawned, with its outer deadline. -/
theorem spawned_of_begun {s : Scheduler P} (hs : Owned s) (idle : s.lifecycle = .idle)
    (outer : Option Instant) {i : Nat} (there : i < (s.begun outer).loops.length) :
    ∃ d e probe, (s.begun outer).loops[i]? = some (CheckLoop.spawn d e probe outer) := by
  have hl := List.getElem?_eq_getElem there
  have hnew : s.loops.length ≤ i := by simp [(hs.idle idle).1]
  generalize (s.begun outer).loops[i] = l at hl
  cases (Effect.started outer idle).new hnew hl with
  | started => exact ⟨_, _, _, hl⟩

/-- A loop that keeps to its deadline does so in every state of a run. -/
theorem keepsTo_run {s : Scheduler P} {d : Instant} {i : Nat} (h : s.KeepsTo d i)
    (ms : List (Move P)) : (∀ p ∈ s.trace ms, p.1.KeepsTo d i) ∧ (s.run ms).KeepsTo d i := by
  refine run_invariant (motive := fun past s => (∀ p ∈ past, p.1.KeepsTo d i) ∧ s.KeepsTo d i)
    ⟨List.forall_mem_nil _, h⟩ (fun past s m hs => ⟨fun p hp => ?_, ?_⟩) ms
  · rcases List.mem_append.mp hp with hp | hp
    · exact hs.1 p hp
    · exact List.mem_singleton.mp hp ▸ hs.2
  · exact hs.2.move (effect_move s m)

/-- An attempt that such a loop completes it completes before the deadline. -/
theorem KeepsTo.completed {s : Scheduler P} {d : Instant} {i : Nat} (h : s.KeepsTo d i)
    {m : Move P} {o : Outcome} (ho : s.completed? i m = some o) : s.now < d := by
  unfold completed? at ho
  split at ho
  next j =>
    split at ho
    next =>
      obtain ⟨l, hl, hcompletion⟩ := Option.bind_eq_some_iff.mp ho
      have going : l.isCancelled s.now = false := CheckLoop.going_of_completion hcompletion
      exact CheckLoop.before_of_going (h.get hl) going
    next => cases ho
  next => cases ho

/-! ### Recording in no time -/

/-- A loop records its checks before a deadline, and is about to record one only then. -/
structure RecordsBefore (s : Scheduler P) (d : Instant) (i : Nat) : Prop where
  publishing : ∀ l, s.loops[i]? = some l → l.isPublishing = true → s.now < d
  recorded : ∀ t ∈ s.recordings i, t < d

/-- A loop that has come to publish was publishing or has just completed an attempt. -/
private theorem going_of_publishing {l : CheckLoop P} {x : Exporter} {now : Instant}
    {q : CheckLoop.Progress P} (h : CheckLoop.Stepped l x now q)
    (publishing : q.loop.isPublishing = true) :
    l.isPublishing = true ∨ l.isCancelled now = false := by
  cases h with
  | ended | delayed | launched | broke | rested => cases publishing
  | completed _ _ complete => exact Or.inr (CheckLoop.going_of_completion complete)
  | wrote hp => exact Or.inl (by simp [CheckLoop.isPublishing, hp])

/-- A loop still records before the deadline after a move, if that is no move of the clock in the
midst of publishing. -/
theorem RecordsBefore.move {s s' : Scheduler P} {m : Move P} {d : Instant} {i : Nat}
    (h : s.RecordsBefore d i) (keeps : s.KeepsTo d i) (hm : Effect s m s')
    (atOnce : ∀ t, m = .clock t → s.now < t → ∀ l ∈ s.loops, l.isPublishing = false) :
    s'.RecordsBefore d i := by
  refine ⟨fun l' hl' hp => ?_, fun t ht => ?_⟩
  · obtain ⟨l, hl, -⟩ := keeps.outer
    by_cases hloop : m = .loop i
    · subst hloop
      cases hm with
      | none => exact h.publishing l' hl' hp
      | @stepped _ k q hk hstep =>
        have hq : q.loop = l' := by
          simpa [note, (List.getElem?_eq_some_iff.mp hl).1] using hl'
        rcases going_of_publishing (CheckLoop.stepped_of_step hstep) (hq ▸ hp) with hbusy | going
        · exact h.publishing k hk hbusy
        · exact CheckLoop.before_of_going (keeps.get hk) going
    · -- the loop stood by, so it has been publishing before, and the clock has stood still
      obtain ⟨k, hk, hstands⟩ := hm.standsBy hloop hl
      obtain rfl := Option.some.inj (hk.symm.trans hl')
      have hbusy : l.isPublishing = true := hstands.isPublishing.symm.trans hp
      have hnow : s'.now = s.now := by
        rcases now_of_effect hm with hsame | ⟨t, hclock, hmax⟩
        · exact hsame
        · by_contra hpassed
          have hlate : s.now < t :=
            Nat.lt_of_not_le fun hle => hpassed (hmax.trans (Nat.max_eq_left hle))
          simp [atOnce t hclock hlate l (List.mem_of_getElem? hl)] at hbusy
      exact hnow ▸ h.publishing l hl hbusy
  · obtain ⟨event, hmem, hrecorded⟩ := mem_recordings.mp ht
    rcases mem_happened_of_effect hm hmem with hold | ⟨-, hnow, l, q, hl, hstep, hevent⟩
    · exact h.recorded t (mem_recordings.mpr ⟨event, hold, hrecorded⟩)
    · rw [show t = s.now from hnow]
      exact h.publishing l hl (hstep.records hevent hrecorded)

/-- A loop records its checks before the deadline all through a run in which publishing takes no
time. -/
theorem recordsBefore_run {s : Scheduler P} {d : Instant} {i : Nat} (keeps : s.KeepsTo d i)
    (h : s.RecordsBefore d i) {ms : List (Move P)} (atOnce : PublishesAtOnce (s.trace ms)) :
    (s.run ms).RecordsBefore d i := by
  refine (run_invariant
    (motive := fun past s => s.KeepsTo d i ∧ (PublishesAtOnce past → s.RecordsBefore d i))
    ⟨keeps, fun _ => h⟩ (fun past s m hs => ⟨hs.1.move (effect_move s m), fun atOnce => ?_⟩) ms).2
    atOnce
  have hpast : s.RecordsBefore d i := hs.2 fun p hp => atOnce p (List.mem_append_left _ hp)
  exact hpast.move hs.1 (effect_move s m) (atOnce (s, m) (by simp))

/-! ### The end of a loop -/

/-- A move that does not drive a loop leaves it the steps that it has left. -/
theorem stepsLeft_of_not_driven {s s' : Scheduler P} {m : Move P} (hm : Effect s m s') {i : Nat}
    (hloop : m ≠ .loop i) {l : CheckLoop P} (hl : s.loops[i]? = some l) :
    ∃ l', s'.loops[i]? = some l' ∧ l'.stepsLeft = l.stepsLeft := by
  have lasts : Lasts (P := P) fun j a b => m ≠ .loop j → b.stepsLeft = a.stepsLeft :=
    ⟨fun _ _ _ => rfl, fun _ _ _ _ h h' hj => (h' hj).trans (h hj),
      fun _ l _ => l.stepsLeft_signal⟩
  obtain ⟨l', hl', hleft⟩ := (hm.related lasts
    (fun _ l ending _ _ => l.stepsLeft_endProbe ending)
    fun _ _ _ heq _ hne => absurd heq hne).2 i l hl
  exact ⟨l', hl', hleft hloop⟩

/-- Nothing that tells a loop to end is taken back. -/
structure StaysTold (l l' : CheckLoop P) : Prop where
  outer : l'.outer = l.outer
  stopped : l.stopped = true → l'.stopped = true

/-- To be told to end again takes nothing back. -/
theorem lasts_staysTold : Lasts (P := P) fun _ => StaysTold where
  refl _ _ := ⟨rfl, id⟩
  trans _ _ _ _ h h' := ⟨h'.outer.trans h.outer, fun told => h'.stopped (h.stopped told)⟩
  signal _ _ := ⟨rfl, fun _ => rfl⟩

/-- The end of a probe tells a loop nothing about its own end. -/
theorem staysTold_endProbe (l : CheckLoop P) (ending : ProbeEnd) :
    StaysTold l (l.endProbe ending) := by
  rcases l.endProbe_cases ending with h | ⟨a, -, h⟩
  · rw [h]
    exact ⟨rfl, id⟩
  · rw [h]
    exact ⟨rfl, id⟩

/-- No step of a loop takes back that it is to end. -/
theorem staysTold_of_stepped {l : CheckLoop P} {x : Exporter} {now : Instant}
    {q : CheckLoop.Progress P} (h : CheckLoop.Stepped l x now q) : StaysTold l q.loop := by
  cases h with
  | wrote _ _ write =>
    obtain ⟨state, transition, hq⟩ := CheckLoop.write?_some write
    rw [hq]
    exact ⟨rfl, id⟩
  | ended | delayed | launched | completed | broke | rested => exact ⟨rfl, id⟩

/-- No move takes back that a loop is to end. -/
theorem Effect.staysTold {s s' : Scheduler P} {m : Move P} (h : Effect s m s') :
    LoopsRelated (fun _ => StaysTold) s.loops s'.loops :=
  h.related lasts_staysTold (fun _ l ending _ => staysTold_endProbe l ending)
    fun _ _ _ _ hstep => staysTold_of_stepped hstep

/-- **A loop that is to end stays so**, whatever happens. -/
theorem Effect.cancelled {s s' : Scheduler P} {m : Move P} (h : Effect s m s') {i : Nat}
    {l : CheckLoop P} (hl : s.loops[i]? = some l) (cancelled : l.isCancelled s.now = true) :
    ∃ l', s'.loops[i]? = some l' ∧ l'.isCancelled s'.now = true := by
  obtain ⟨l', hl', htold⟩ := h.staysTold.2 i l hl
  refine ⟨l', hl', ?_⟩
  rw [CheckLoop.isCancelled, Bool.or_eq_true] at cancelled ⊢
  refine cancelled.imp htold.stopped fun late => ?_
  obtain ⟨d, hd, hlate⟩ := (Option.any_eq_true ..).mp late
  rw [htold.outer, hd]
  simpa using Nat.le_trans (of_decide_eq_true hlate) (now_le_of_effect h)

/-- **A loop that is to end is over** once it has been driven as often as it has steps left. -/
theorem isDone_of_driven {s : Scheduler P} {i : Nat} {l : CheckLoop P}
    (hl : s.loops[i]? = some l) (cancelled : l.isCancelled s.now = true) {ms : List (Move P)}
    (often : l.stepsLeft ≤ ms.countP (Move.drives i)) : (s.run ms).isDone i = true := by
  induction ms generalizing s l with
  | nil =>
    have hdone := CheckLoop.isDone_of_stepsLeft (Nat.le_zero.mp often)
    simp [Scheduler.isDone, hl, hdone]
  | cons m ms ih =>
    have hm := effect_move s m
    obtain ⟨l', hl', cancelled'⟩ := hm.cancelled hl cancelled
    rw [run_cons]
    refine ih hl' cancelled' ?_
    rw [List.countP_cons] at often
    by_cases hloop : m = .loop i
    · subst hloop
      rw [if_pos (Move.drives_iff.mpr rfl)] at often
      cases hq : l.step s.metrics s.now with
      | none =>
        rw [move_loop_of_stuck hl hq, hl] at hl'
        obtain rfl := Option.some.inj hl'
        simp [CheckLoop.stepsLeft_of_isDone (CheckLoop.isDone_of_stuck cancelled hq)]
      | some q =>
        obtain rfl := Option.some.inj ((getElem?_move_loop hl hq).symm.trans hl')
        have hless := (CheckLoop.stepped_of_step hq).stepsLeft_lt cancelled
        omega
    · obtain ⟨l'', hl'', hleft⟩ := stepsLeft_of_not_driven hm hloop hl
      obtain rfl := Option.some.inj (hl''.symm.trans hl')
      rw [if_neg (mt Move.drives_iff.mp hloop)] at often
      omega

/-! ### What an outer deadline is for -/

/-- What happens to a loop that keeps to an outer deadline, in a past and up to now. -/
structure EndsBy (past : List (Scheduler P × Move P)) (s : Scheduler P) (d : Instant) (i : Nat) :
    Prop where
  /-- Its probes are launched before the deadline, and none may run longer. -/
  launched : ∀ p ∈ s.launches i, p.1 < d ∧ p.2 ≤ d
  /-- Its attempts are completed before the deadline, or given up. -/
  completed : ∀ p ∈ past, ∀ o, p.1.completed? i p.2 = some o → p.1.now < d
  /-- Its checks are recorded before the deadline, as long as to publish one takes no time. -/
  recorded : PublishesAtOnce past → ∀ t ∈ s.recordings i, t < d
  /-- Once the deadline has come and nothing is due, it is over. -/
  ended : d ≤ s.now → s.stepLoop i = none → s.isDone i = true
  /-- What is due then is done in seven steps, whatever else happens in between. -/
  ends : d ≤ s.now → ∀ more : List (Move P), 7 ≤ more.countP (Move.drives i) →
    (s.run more).isDone i = true

/-- **An outer deadline ends every loop of its start**, whatever calls come later. The loops that
come later have been added or put in the place of another, and it is not theirs. -/
theorem outer_deadline_ends (x : Exporter) (defaults : CheckPlan) (before after : List (Move P))
    (d : Instant) (idle : ((fresh x defaults).run before).lifecycle = .idle) :
    let begun := (fresh x defaults).run (before ++ [.start (some d)])
    let s := begun.run after
    (∀ i < begun.loops.length, EndsBy (begun.trace after) s d i) ∧
      ∀ (i : Nat) (l : CheckLoop P), begun.loops.length ≤ i → s.loops[i]? = some l →
        l.outer = none ∧ ∃ m ∈ after, m.opens = true := by
  intro begun s
  have hbefore : Owned ((fresh x defaults).run before) := owned_run x defaults before
  have hbegun : begun = ((fresh x defaults).run before).begun (some d) := by
    rw [show begun = ((fresh x defaults).run before).move (.start (some d)) from
      run_concat .., Scheduler.move, start, if_neg (by simp [idle])]
    rfl
  have hnothing (i : Nat) : ((fresh x defaults).run before).happened i = [] := by
    refine happened_of_no_loop x defaults before ?_
    simp [(hbefore.idle idle).1]
  have started : begun.lifecycle ≠ .idle := by
    have hrunning : begun.lifecycle = .running := by
      rw [hbegun, Scheduler.begun, serveAll_frame]
      rfl
    simp [hrunning]
  refine ⟨fun i hi => ?_, fun i l hlater hl => opened_run started hlater hl⟩
  obtain ⟨dep, e, probe, hspawned⟩ :
      ∃ dep e probe, begun.loops[i]? = some (CheckLoop.spawn dep e probe (some d)) := by
    rw [hbegun] at hi ⊢
    exact spawned_of_begun hbefore idle _ hi
  have hquiet : begun.happened i = [] := by
    rw [hbegun, begun_happened]
    exact hnothing i
  have hkeeps : begun.KeepsTo d i := ⟨⟨_, hspawned, rfl⟩, by simp [launches, hquiet]⟩
  have hrecords : begun.RecordsBefore d i := by
    refine ⟨fun l hl hpublishing => ?_, by simp [recordings, hquiet]⟩
    obtain rfl := Option.some.inj (hspawned.symm.trans hl)
    cases hpublishing
  obtain ⟨hpast, hnow⟩ := keepsTo_run hkeeps after
  obtain ⟨l, hl, houter⟩ := hnow.outer
  refine ⟨hnow.launched, fun p hp o ho => (hpast p hp).completed ho,
    fun atOnce => (recordsBefore_run hkeeps hrecords atOnce).recorded, fun late stuck => ?_,
    fun late more often => isDone_of_driven hl (CheckLoop.isCancelled_of_outer houter late)
      (Nat.le_trans ?_ often)⟩
  · have hstuck : l.step s.metrics s.now = none := by
      cases hq : l.step s.metrics s.now with
      | none => rfl
      | some q => simp [stepLoop, show s.loops[i]? = some l from hl, hq] at stuck
    have hdone := CheckLoop.isDone_of_stuck (CheckLoop.isCancelled_of_outer houter late) hstuck
    simp [Scheduler.isDone, show s.loops[i]? = some l from hl, hdone]
  · have hrun : (fresh x defaults).run (before ++ [.start (some d)] ++ after) = s := run_append ..
    have hfollows := followed_run x defaults (before ++ [.start (some d)] ++ after)
    rw [hrun] at hfollows
    exact (hfollows.get hl).stepsLeft_le

/-! ### Two seconds -/

/-- A database that hangs. Its check could take five seconds, but everything is to end after two. -/
def hungDatabase : List (Move Unit) :=
  [.loop 0, .clock 2000000000, .loop 0]

/-- Its probe is cut down to two seconds, nothing is recorded, and its loop is over. -/
theorem hungDatabase_ends :
    let registered : List (Move Unit) := [.register (database [Endpoint.plain "a" 1]) ()]
    let begun := newApp.run (registered ++ [.start (some 2000000000)])
    let s := begun.run hungDatabase
    (newApp.run registered).lifecycle = .idle ∧
      EndsBy (begun.trace hungDatabase) s 2000000000 0 ∧
      s.launches 0 = [(0, 2000000000)] ∧ s.recordings 0 = [] ∧ s.isDone 0 = true := by
  have idle : (newApp.run [.register (database [Endpoint.plain "a" 1]) ()]).lifecycle = .idle := by
    decide +kernel
  refine ⟨idle, ?_, by decide +kernel, by decide +kernel, by decide +kernel⟩
  exact (outer_deadline_ends _ _ _ hungDatabase _ idle).1 0 (by decide +kernel)

/-- A database moves right after such a start, and a second one is added. Both are checked at once,
and again when fifteen seconds have passed. -/
def latecomers : List (Move Unit) :=
  [[.register (database [Endpoint.plain "a" 1]) (), .start (some 2000000000),
      .update "db" "a" 1 (Endpoint.plain "b" 1) (), .add "db" .tcp true (Endpoint.plain "c" 1) ()],
    checking 1 (.ok ()), checking 2 (.ok ()), [.clock 15000000000],
    checking 1 (.ok ()), checking 2 (.ok ())].flatten

/-- Their probes may run past the deadline, and they are launched and their checks recorded after
it; with nothing due, the loops go on. -/
theorem latecomers_outlive_deadline :
    let s := newApp.run latecomers
    ∀ i ∈ [1, 2], s.launches i = [(15000000000, 20000000000), (0, 5000000000)] ∧
      s.recordings i = [15000000000, 0] ∧ (s.stepLoop i).isNone = true ∧ s.isDone i = false := by
  decide +kernel

end Scheduler

end HealthMonitor
