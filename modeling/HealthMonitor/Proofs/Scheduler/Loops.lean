import HealthMonitor.Proofs.Scheduler.Run

/-!
# The life of a check loop

`CheckLoop.Stepped` says once what a step of a loop can do, phase by phase, and
`CheckLoop.stepped_of_step` that it does no more. `CheckLoop.GoesOn` is what never changes over the
life of a loop: whom it checks, and that it has ended once it has.

`Scheduler.Effect.related` says once what a move does to the loops: the one it drives steps, others
may be told to stop or have their probes ended, and new ones come behind. Whatever lasts through
that relates the loops before and after a move.
-/

namespace HealthMonitor

namespace CheckLoop

variable {P : Type}

/-- Whether a loop is publishing the result of a check. -/
def isPublishing (l : CheckLoop P) : Bool :=
  match l.phase with
  | .publishing _ => true
  | _ => false

/-- The outcome of the attempt that a loop completes by its next step, if it completes one: neither
one that is still running nor one that is given up because the loop is to end. -/
def completion? (l : CheckLoop P) (now : Instant) : Option Outcome :=
  match l.phase with
  | .probing a =>
    if l.isCancelled now then none
    else
      match a.ending with
      | some ending => some (outcomeOf ending)
      | none => if a.deadline ≤ now then some (.error (.deadline l.plan.timeout)) else none
  | _ => none

/-- Whether a loop rests before a probe: it has just been spawned, or waits for its time. -/
def isResting (l : CheckLoop P) : Bool :=
  match l.phase with
  | .spawned | .delaying _ | .waiting _ => true
  | _ => false

/-! ### Phases -/

/-- A loop is publishing just if that is its phase. -/
theorem isPublishing_iff {l : CheckLoop P} :
    l.isPublishing = true ↔ ∃ p, l.phase = .publishing p := by
  unfold isPublishing
  split
  next p hp => exact iff_of_true rfl ⟨p, hp⟩
  next hnone => exact iff_of_false Bool.false_ne_true fun ⟨p, hp⟩ => hnone p hp

theorem not_publishing_of_resting {l : CheckLoop P} (h : l.isResting = true) :
    l.isPublishing = false := by
  unfold isResting at h
  unfold isPublishing
  split at h <;> simp_all

theorem alive_of_publishing {l : CheckLoop P} {p : Publication} (h : l.phase = .publishing p) :
    l.isDone = false := by
  simp [isDone, h]

theorem alive_of_probing {l : CheckLoop P} {a : Attempt} (h : l.phase = .probing a) :
    l.isDone = false := by
  simp [isDone, h]

theorem alive_of_resting {l : CheckLoop P} (h : l.isResting = true) : l.isDone = false := by
  unfold isResting at h
  unfold isDone
  split at h <;> simp_all

/-! ### Steps -/

/-- What a step of a loop makes of it and of the exporter. -/
inductive Stepped (l : CheckLoop P) (x : Exporter) (now : Instant) : Progress P → Prop where
  | ended (busy : l.isPublishing = false) (alive : l.isDone = false)
      (cancelled : l.isCancelled now = true) : Stepped l x now (l.moveTo x .finished)
  | delayed (due : Instant) (spawned : l.phase = .spawned)
      (going : l.isCancelled now = false) :
      Stepped l x now (l.moveTo x (.delaying due))
  | launched (nextTick : Option Instant) (resting : l.isResting = true)
      (going : l.isCancelled now = false) :
      Stepped l x now
        ⟨{ l with phase := .probing ⟨now, l.deadlineFrom now, none, nextTick⟩ }, x,
          [.launched (l.deadlineFrom now)]⟩
  | completed {a : Attempt} {outcome : Outcome} (lines : List LogLine)
      (probing : l.phase = .probing a) (complete : l.completion? now = some outcome) :
      Stepped l x now (l.publish x now a outcome lines)
  | wrote {p : Publication} {place : Place} {rest : List Place} {q : Progress P}
      (publishing : l.phase = .publishing p) (next : p.left = place :: rest)
      (write : l.write? x now { p with left := rest } place = some q) : Stepped l x now q
  | broke {p : Publication} {place : Place} {rest : List Place}
      (publishing : l.phase = .publishing p) (next : p.left = place :: rest)
      (write : l.write? x now { p with left := rest } place = none) :
      Stepped l x now (l.moveTo x .broken)
  | rested {p : Publication} (due : Instant) (publishing : l.phase = .publishing p)
      (last : p.left = []) :
      Stepped l x now
        ⟨{ l with phase := .waiting due }, x, (l.resultLines p).map LoopEvent.logged⟩

/-- A loop that is due launches a probe, or ends if it has been told to. -/
private theorem stepped_launch {l : CheckLoop P} {x : Exporter} {now : Instant}
    (nextTick : Option Instant) (resting : l.isResting = true) :
    Stepped l x now (l.launch x now nextTick) := by
  unfold launch
  split
  next cancelled =>
    exact .ended (not_publishing_of_resting resting) (alive_of_resting resting) cancelled
  next going => exact .launched nextTick resting (by simpa using going)

/-- **A step of a loop does nothing else.** -/
theorem stepped_of_step {l : CheckLoop P} {x : Exporter} {now : Instant} {p : Progress P}
    (h : l.step x now = some p) : Stepped l x now p := by
  cases hl : l.phase with
  | spawned =>
    simp only [step, hl] at h
    split at h
    · cases h
      exact stepped_launch none (by simp [isResting, hl])
    · split at h
      next cancelled =>
        cases h
        exact .ended (by simp [isPublishing, hl]) (by simp [isDone, hl]) cancelled
      next going =>
        cases h
        exact .delayed _ hl (by simpa using going)
  | delaying due =>
    simp only [step, hl] at h
    split at h
    next cancelled =>
      cases h
      exact .ended (by simp [isPublishing, hl]) (by simp [isDone, hl]) cancelled
    next =>
      split at h
      · cases h
        exact stepped_launch none (by simp [isResting, hl])
      · cases h
  | probing a =>
    simp only [step, hl] at h
    split at h
    next cancelled =>
      cases h
      exact .ended (by simp [isPublishing, hl]) (by simp [isDone, hl]) cancelled
    next going =>
      split at h
      next ending hending =>
        cases h
        have complete : l.completion? now = some (outcomeOf ending) := by
          simp [completion?, hl, going, hending]
        exact .completed _ hl complete
      next hending =>
        split at h
        next late =>
          cases h
          have complete : l.completion? now = some (.error (.deadline l.plan.timeout)) := by
            simp [completion?, hl, going, hending, late]
          exact .completed _ hl complete
        next => cases h
  | publishing p =>
    simp only [step, hl, publishOn] at h
    split at h
    next last =>
      cases h
      exact .rested _ hl last
    next place rest next =>
      split at h
      next hw =>
        cases h
        exact .wrote hl next hw
      next hw =>
        cases h
        exact .broke hl next hw
  | waiting due =>
    simp only [step, hl] at h
    split at h
    next cancelled =>
      cases h
      exact .ended (by simp [isPublishing, hl]) (by simp [isDone, hl]) cancelled
    next =>
      split at h
      · cases h
        exact stepped_launch _ (by simp [isResting, hl])
      · cases h
  | finished => simp [step, hl] at h
  | broken => simp [step, hl] at h

/-! ### What stays -/

/-- A loop goes on as another: it checks the same endpoint with the same probe, and is over if it
was over. -/
structure GoesOn (l l' : CheckLoop P) : Prop where
  dependency : l'.dependency = l.dependency
  endpoint : l'.endpoint = l.endpoint
  probe : l'.probe = l.probe
  outer : l'.outer = l.outer
  ended : l.isDone = true → l'.phase = l.phase

theorem GoesOn.refl (l : CheckLoop P) : l.GoesOn l := ⟨rfl, rfl, rfl, rfl, fun _ => rfl⟩

/-- What has gone on goes on: a loop that was over at first is still in the same phase in the end.
-/
theorem GoesOn.trans {l l' l'' : CheckLoop P} (h : l.GoesOn l') (h' : l'.GoesOn l'') :
    l.GoesOn l'' where
  dependency := h'.dependency.trans h.dependency
  endpoint := h'.endpoint.trans h.endpoint
  probe := h'.probe.trans h.probe
  outer := h'.outer.trans h.outer
  ended done := by
    have hphase := h.ended done
    have done' : l'.isDone = true := by simpa only [isDone, hphase] using done
    exact (h'.ended done').trans hphase

theorem GoesOn.isDone {l l' : CheckLoop P} (h : l.GoesOn l') (done : l.isDone = true) :
    l'.isDone = true := by
  simpa only [CheckLoop.isDone, h.ended done] using done

/-- A signal is taken note of; the loop itself is what acts on it. -/
theorem goesOn_signal (l : CheckLoop P) : l.GoesOn l.signal := ⟨rfl, rfl, rfl, rfl, fun _ => rfl⟩

/-- The end of a probe is kept in the attempt, if there is one and it has no end yet. At any other
time it comes too late. -/
theorem endProbe_cases (l : CheckLoop P) (ending : ProbeEnd) :
    l.endProbe ending = l ∨ ∃ a, l.phase = .probing a ∧
      l.endProbe ending = { l with phase := .probing { a with ending := a.ending <|> some ending } }
    := by
  unfold endProbe
  split
  next a ha => exact Or.inr ⟨a, ha, rfl⟩
  next => exact Or.inl rfl

/-- The end of a probe is for the loop to look at by its next step. -/
theorem goesOn_endProbe (l : CheckLoop P) (ending : ProbeEnd) : l.GoesOn (l.endProbe ending) := by
  rcases endProbe_cases l ending with h | ⟨a, ha, h⟩
  · rw [h]
    exact .refl l
  · rw [h]
    exact ⟨rfl, rfl, rfl, rfl, fun done => by simp [CheckLoop.isDone, ha] at done⟩

/-- Writing to a place leaves everything of a loop but its state and its publication. -/
theorem write?_some {l : CheckLoop P} {x : Exporter} {now : Instant} {p : Publication}
    {place : Place} {q : Progress P} (h : l.write? x now p place = some q) :
    ∃ state transition, q.loop = { l with
      state := state, phase := .publishing { p with transition := transition } } := by
  cases place with
  | latency =>
    simp only [write?, Option.map_eq_some_iff] at h
    obtain ⟨y, -, rfl⟩ := h
    exact ⟨l.state, p.transition, rfl⟩
  | status | detail | health =>
    cases h
    exact ⟨l.state, p.transition, rfl⟩
  | state =>
    cases h
    exact ⟨_, _, rfl⟩

/-- A loop that is not over goes on as any loop for the same endpoint. -/
private theorem goesOn_of_alive {l : CheckLoop P} (alive : l.isDone = false) (state : EndpointState)
    (phase : Phase) : l.GoesOn { l with state := state, phase := phase } :=
  ⟨rfl, rfl, rfl, rfl, fun done => by simp [alive] at done⟩

/-- Only loops that are not over take steps. -/
theorem Stepped.alive {l : CheckLoop P} {x : Exporter} {now : Instant} {q : Progress P}
    (h : Stepped l x now q) : l.isDone = false := by
  cases h with
  | ended _ alive _ => exact alive
  | delayed _ spawned => simp [isDone, spawned]
  | launched _ resting _ => exact alive_of_resting resting
  | completed _ probing _ => exact alive_of_probing probing
  | wrote publishing _ _ => exact alive_of_publishing publishing
  | broke publishing _ _ => exact alive_of_publishing publishing
  | rested _ publishing _ => exact alive_of_publishing publishing

/-- A step changes the state of the endpoint and the phase, and nothing else of a loop. -/
theorem Stepped.goesOn {l : CheckLoop P} {x : Exporter} {now : Instant} {q : Progress P}
    (h : Stepped l x now q) : l.GoesOn q.loop := by
  have alive := h.alive
  cases h with
  | wrote _ _ write =>
    obtain ⟨state, transition, hq⟩ := write?_some write
    exact hq ▸ goesOn_of_alive alive state _
  | ended | delayed | launched | completed | broke | rested =>
    exact goesOn_of_alive alive l.state _

end CheckLoop

namespace Scheduler

variable {P : Type}

/-! ### Loops through a move -/

/-- A step of a call at most tells one loop to stop. -/
theorem advance_loops {s s' : Scheduler P} {c : Call} {after : Option Call}
    (h : Advance s c s' after) :
    s'.loops = s.loops ∨ ∃ i, s'.loops = s.loops.modify i CheckLoop.signal := by
  cases h with
  | joinedByStop =>
    obtain ⟨journal, h⟩ := noticeEnd_eq s _
    exact Or.inl (by rw [h])
  | joined =>
    obtain ⟨journal, h⟩ := noticeEnd_eq s _
    exact Or.inl (by rw [h])
  | cleared => exact Or.inl (by rw [clearPlace_eq])
  | signalled => exact Or.inr ⟨_, rfl⟩
  | stopReturned | retired | returned => exact Or.inl rfl

/-- Loops are told to stop one after another. -/
theorem tell_loops (s : Scheduler P) (is : List Nat) :
    (s.tell is).loops = is.foldl (fun ls i => ls.modify i CheckLoop.signal) s.loops := by
  unfold tell
  induction is generalizing s with
  | nil => rfl
  | cons i is ih => exact ih _

/-- No loop is lost by being told to stop. -/
theorem tell_length (s : Scheduler P) (is : List Nat) :
    (s.tell is).loops.length = s.loops.length := by
  rw [tell_loops]
  generalize s.loops = ls
  induction is generalizing ls with
  | nil => rfl
  | cons i is ih => rw [List.foldl_cons, ih, List.length_modify]

/-- To tell loops to stop changes nothing but the loops. -/
theorem tell_frame (s : Scheduler P) (is : List Nat) :
    s.tell is = { s with loops := (s.tell is).loops } := by
  unfold tell
  induction is generalizing s with
  | nil => rfl
  | cons i is ih =>
    rw [List.foldl_cons, ih]
    rfl

theorem advance_length {s s' : Scheduler P} {c : Call} {after : Option Call}
    (h : Advance s c s' after) : s'.loops.length = s.loops.length := by
  rcases advance_loops h with h | ⟨i, h⟩
  · rw [h]
  · rw [h, List.length_modify]

/-- Every loop of a list is related to the one with its number in another list, which may have
more. -/
def LoopsRelated (R : Nat → CheckLoop P → CheckLoop P → Prop) (ls ls' : List (CheckLoop P)) :
    Prop :=
  ls.length ≤ ls'.length ∧
    ∀ (i : Nat) (l : CheckLoop P), ls[i]? = some l →
      ∃ l' : CheckLoop P, ls'[i]? = some l' ∧ R i l l'

/-- A relation that loops keep to when they are told to stop, however often. -/
structure Lasts (R : Nat → CheckLoop P → CheckLoop P → Prop) : Prop where
  refl : ∀ i l, R i l l
  trans : ∀ i l l' l'', R i l l' → R i l' l'' → R i l l''
  signal : ∀ i l, R i l l.signal

section Related

variable {R : Nat → CheckLoop P → CheckLoop P → Prop}

theorem LoopsRelated.refl (hR : Lasts R) (ls : List (CheckLoop P)) : LoopsRelated R ls ls :=
  ⟨Nat.le_refl _, fun i l h => ⟨l, h, hR.refl i l⟩⟩

/-- Relations that last do so over more than one move. -/
theorem LoopsRelated.trans (hR : Lasts R) {ls ls' ls'' : List (CheckLoop P)}
    (h : LoopsRelated R ls ls') (h' : LoopsRelated R ls' ls'') : LoopsRelated R ls ls'' := by
  refine ⟨Nat.le_trans h.1 h'.1, fun i l hl => ?_⟩
  obtain ⟨l', hl', hr⟩ := h.2 i l hl
  obtain ⟨l'', hl'', hr'⟩ := h'.2 i l' hl'
  exact ⟨l'', hl'', hR.trans i l l' l'' hr hr'⟩

/-- A loop of the later list is related to one of the earlier, or it is new. -/
theorem LoopsRelated.origin {ls ls' : List (CheckLoop P)} (h : LoopsRelated R ls ls') {i : Nat}
    {l' : CheckLoop P} (hl' : ls'[i]? = some l') :
    (∃ l, ls[i]? = some l ∧ R i l l') ∨ ls.length ≤ i := by
  by_cases hi : i < ls.length
  · obtain ⟨l'', hl'', hr⟩ := h.2 i ls[i] (List.getElem?_eq_getElem hi)
    obtain rfl : l'' = l' := Option.some.inj (hl''.symm.trans hl')
    exact Or.inl ⟨_, List.getElem?_eq_getElem hi, hr⟩
  · exact Or.inr (Nat.le_of_not_lt hi)

/-- A change of one loop to one that is related keeps all loops related. -/
theorem loopsRelated_modify (hR : Lasts R) (ls : List (CheckLoop P)) (i : Nat)
    {f : CheckLoop P → CheckLoop P} (hf : ∀ l, R i l (f l)) :
    LoopsRelated R ls (ls.modify i f) := by
  refine ⟨by simp, fun j l hl => ?_⟩
  rw [List.getElem?_modify, hl]
  by_cases hij : i = j
  · subst hij
    exact ⟨f l, by simp, hf l⟩
  · exact ⟨l, by simp [hij], hR.refl j l⟩

/-- A loop may be put in the place of one that it is related to. -/
theorem loopsRelated_set (hR : Lasts R) {ls : List (CheckLoop P)} {i : Nat} {l l' : CheckLoop P}
    (hl : ls[i]? = some l) (hr : R i l l') : LoopsRelated R ls (ls.set i l') := by
  refine ⟨by simp, fun j k hk => ?_⟩
  have hi : i < ls.length := (List.getElem?_eq_some_iff.mp hl).1
  by_cases hij : i = j
  · subst hij
    obtain rfl : l = k := Option.some.inj (hl.symm.trans hk)
    exact ⟨l', by simp [hi], hr⟩
  · exact ⟨k, by simp [hij, hk], hR.refl j k⟩

/-- New loops come behind and take no place of another. -/
theorem loopsRelated_append (hR : Lasts R) (ls ls' : List (CheckLoop P)) :
    LoopsRelated R ls (ls ++ ls') := by
  refine ⟨by simp, fun i l hl => ⟨l, ?_, hR.refl i l⟩⟩
  rw [List.getElem?_append_left (List.getElem?_eq_some_iff.mp hl).1, hl]

/-- Loops are related as before, however many are told to stop. The induction is over those that
are. -/
theorem loopsRelated_tell (hR : Lasts R) (s : Scheduler P) (is : List Nat) :
    LoopsRelated R s.loops (s.tell is).loops := by
  rw [tell_loops]
  generalize s.loops = ls
  induction is generalizing ls with
  | nil => exact .refl hR ls
  | cons i is ih => exact (loopsRelated_modify hR ls i (hR.signal i)).trans hR (ih _)

end Related

/-- Each key that is to be served gets a loop behind all others. -/
theorem serveAll_loops (s : Scheduler P) (es : List (String × CheckLoop P)) :
    (s.serveAll es).loops = s.loops ++ es.map Prod.snd := by
  induction es generalizing s with
  | nil => simp [serveAll]
  | cons e es ih =>
    change ((s.serve e.1 e.2).serveAll es).loops = _
    rw [ih]
    simp [serve]

/-- Serving keys changes nothing but the loops and the keys. -/
theorem serveAll_frame (s : Scheduler P) (es : List (String × CheckLoop P)) :
    s.serveAll es =
      { s with loops := (s.serveAll es).loops, slots := (s.serveAll es).slots } := by
  unfold serveAll
  induction es generalizing s with
  | nil => rfl
  | cons e es ih =>
    rw [List.foldl_cons, ih]
    rfl

/-- What a move does to the loops, but for the one that it drives and the one whose probe it ends,
is told by a relation that lasts. -/
theorem Effect.related {R : Nat → CheckLoop P → CheckLoop P → Prop} (hR : Lasts R)
    {s s' : Scheduler P} {m : Move P} (h : Effect s m s')
    (ended : ∀ i l ending, m = .ending i ending → R i l (l.endProbe ending))
    (driven : ∀ i l q, m = .loop i → CheckLoop.Stepped l s.metrics s.now q → R i l q.loop) :
    LoopsRelated R s.loops s'.loops := by
  cases h with
  | none | registered | removed | passed => exact .refl hR _
  | started =>
    change LoopsRelated R _ (serveAll _ _).loops
    rw [serveAll_loops]
    exact loopsRelated_append hR ..
  | told => exact loopsRelated_tell hR ..
  | added => exact loopsRelated_append hR ..
  | replaced => exact loopsRelated_append hR ..
  | stepped loop step =>
    exact loopsRelated_set hR loop (driven _ _ _ rfl (CheckLoop.stepped_of_step step))
  | called call advance =>
    rcases advance_loops advance with h | ⟨i, h⟩
    · exact h ▸ .refl hR _
    · exact h ▸ loopsRelated_modify hR _ i (hR.signal i)
  | ended i ending => exact loopsRelated_modify hR _ i fun l => ended i l ending rfl

/-- Every loop of a list goes on in another, which may have more. -/
abbrev LoopsGoOn (ls ls' : List (CheckLoop P)) : Prop :=
  LoopsRelated (fun _ => CheckLoop.GoesOn) ls ls'

/-- Loops go on as they are told to stop. -/
theorem lasts_goesOn : Lasts (P := P) fun _ => CheckLoop.GoesOn where
  refl _ := .refl
  trans _ _ _ _ := .trans
  signal _ := CheckLoop.goesOn_signal

/-- **No move loses a loop, moves it to another endpoint or wakes it up once it is over.** -/
theorem Effect.loopsGoOn {s s' : Scheduler P} {m : Move P} (h : Effect s m s') :
    LoopsGoOn s.loops s'.loops :=
  h.related lasts_goesOn (fun _ l ending _ => l.goesOn_endProbe ending)
    fun _ _ _ _ hstep => hstep.goesOn

/-- No run loses a loop either. -/
theorem loopsGoOn_run (s : Scheduler P) (ms : List (Move P)) : LoopsGoOn s.loops (s.run ms).loops :=
  run_invariant (motive := fun _ s' => LoopsGoOn s.loops s'.loops) (.refl lasts_goesOn _)
    (fun _ s' m h => h.trans lasts_goesOn (effect_move s' m).loopsGoOn) ms

/-! ### Loops that do not step -/

/-- A loop stands by as another: it may have been told to stop and its probe may have ended. -/
structure StandsBy (l l' : CheckLoop P) : Prop where
  dependency : l'.dependency = l.dependency
  state : l'.state = l.state
  publishing : ∀ p, l'.phase = .publishing p ↔ l.phase = .publishing p
  broken : l'.phase = .broken ↔ l.phase = .broken

theorem standsBy_of_phase {l l' : CheckLoop P} (dependency : l'.dependency = l.dependency)
    (state : l'.state = l.state) (phase : l'.phase = l.phase) : StandsBy l l' :=
  ⟨dependency, state, fun _ => by rw [phase], by rw [phase]⟩

theorem StandsBy.isPublishing {l l' : CheckLoop P} (h : StandsBy l l') :
    l'.isPublishing = l.isPublishing := by
  rw [Bool.eq_iff_iff, CheckLoop.isPublishing_iff, CheckLoop.isPublishing_iff]
  exact exists_congr h.publishing

/-- The end of a probe leaves a loop in the phase of probing, so it stands by. -/
theorem standsBy_endProbe (l : CheckLoop P) (ending : ProbeEnd) :
    StandsBy l (l.endProbe ending) := by
  rcases l.endProbe_cases ending with h | ⟨a, ha, h⟩
  · rw [h]
    exact standsBy_of_phase rfl rfl rfl
  · rw [h]
    exact ⟨rfl, rfl, fun p => by simp [ha], by simp [ha]⟩

/-- All loops but the one that a move drives stand by. -/
theorem lasts_standsBy (m : Move P) :
    Lasts (P := P) fun i l l' => m ≠ .loop i → StandsBy l l' where
  refl i l _ := standsBy_of_phase rfl rfl rfl
  trans i l l' l'' h h' hm := by
    have hl := h hm
    have hl' := h' hm
    exact ⟨hl'.dependency.trans hl.dependency, hl'.state.trans hl.state,
      fun p => (hl'.publishing p).trans (hl.publishing p), hl'.broken.trans hl.broken⟩
  signal i l _ := standsBy_of_phase rfl rfl rfl

/-- **A move leaves every loop but the one that it drives standing by.** -/
theorem Effect.standsBy {s s' : Scheduler P} {m : Move P} (h : Effect s m s') {i : Nat}
    (hm : m ≠ .loop i) {l : CheckLoop P} (hl : s.loops[i]? = some l) :
    ∃ l', s'.loops[i]? = some l' ∧ StandsBy l l' := by
  obtain ⟨l', hl', hstands⟩ := (h.related (lasts_standsBy m)
    (fun _ l ending _ _ => standsBy_endProbe l ending)
    fun _ _ _ heq _ hne => absurd heq hne).2 i l hl
  exact ⟨l', hl', hstands hm⟩

theorem advance_pending {s s' : Scheduler P} {c : Call} {after : Option Call}
    (h : Advance s c s' after) : s'.pending = s.pending := by
  obtain ⟨_, _, _, _, rfl⟩ := advance_eq h
  rfl

/-- **What waits for the start has been registered**, and has passed the validation. -/
theorem Effect.pending {s s' : Scheduler P} {m : Move P} (h : Effect s m s') {r : Registration P}
    (hr : r ∈ s'.pending) :
    r ∈ s.pending ∨ m = .register r.dependency r.probe ∧ r.dependency.validate = .ok () := by
  cases h with
  | registered probe _ valid =>
    rcases List.mem_append.mp hr with hr | hr
    · exact Or.inl hr
    · obtain rfl := List.mem_singleton.mp hr
      exact Or.inr ⟨rfl, valid⟩
  | started =>
    rw [begun, serveAll_frame] at hr
    cases hr
  | told =>
    rw [tell_frame] at hr
    exact Or.inl hr
  | called _ advance => exact Or.inl (advance_pending advance ▸ hr)
  | none | added | removed | replaced | stepped | ended | passed => exact Or.inl hr

/-- The start spawns one loop for each endpoint that was registered. -/
theorem spawned_of_mem_startLoops {s : Scheduler P} {outer : Option Instant}
    {e : String × CheckLoop P} (he : e ∈ (s.startLoops outer).entries) :
    ∃ r ∈ s.pending, ∃ ep ∈ r.dependency.endpoints,
      e = (r.dependency.key ep, CheckLoop.spawn r.dependency ep r.probe outer) := by
  obtain ⟨r, hr, he⟩ := List.mem_flatMap.mp (Dictionary.mem_of_mem_ofList he)
  obtain ⟨ep, hep, rfl⟩ := List.mem_map.mp he
  exact ⟨r, hr, ep, hep, rfl⟩

/-- The loops that a move can spawn, and for whom. -/
inductive Spawned (s : Scheduler P) : Move P → CheckLoop P → Prop where
  | started {r : Registration P} {e : Endpoint} (outer : Option Instant)
      (idle : s.lifecycle = .idle) (registered : r ∈ s.pending)
      (listed : e ∈ r.dependency.endpoints) :
      Spawned s (.start outer) (CheckLoop.spawn r.dependency e r.probe outer)
  | added {d : Dependency} {name : String} {kind : Kind} {critical : Bool} {e : Endpoint}
      {probe : P} (dependency : d = s.dynamicDependency name kind critical e)
      (running : s.lifecycle = .running) (valid : d.validate = .ok ()) :
      Spawned s (.add name kind critical e probe) (CheckLoop.spawn d e probe none)
  | replaced {key name host : String} {port : UInt16} {i : Nat} {old : CheckLoop P} {e : Endpoint}
      {probe : P} (named : key = Endpoint.keyOf name host port)
      (running : s.lifecycle = .running) (labels : Dependency.checkLabels e.labels = .ok ())
      (served : s.slots.get? key = some i) (loop : s.loops[i]? = some old) :
      Spawned s (.update name host port e probe)
        (CheckLoop.spawn { old.dependency with endpoints := [e] } e probe none)

/-- **A loop that is new has been spawned by a start, an addition or an update.** -/
theorem Effect.new {s s' : Scheduler P} {m : Move P} (h : Effect s m s') {i : Nat}
    (new : s.loops.length ≤ i) {l' : CheckLoop P} (hl' : s'.loops[i]? = some l') :
    Spawned s m l' := by
  have none_new (hlength : s'.loops.length = s.loops.length) : False :=
    absurd (List.getElem?_eq_some_iff.mp hl').1 (by omega)
  have one_new {l : CheckLoop P} (hloops : s'.loops = s.loops ++ [l]) : l' = l := by
    rw [hloops, List.getElem?_append_right new] at hl'
    exact List.mem_singleton.mp (List.mem_of_getElem? hl')
  cases h with
  | started outer idle =>
    change (serveAll _ _).loops[i]? = some l' at hl'
    rw [serveAll_loops, List.getElem?_append_right new] at hl'
    obtain ⟨e, he, rfl⟩ := List.mem_map.mp (List.mem_of_getElem? hl')
    obtain ⟨r, hr, ep, hep, rfl⟩ := spawned_of_mem_startLoops he
    exact .started outer idle hr hep
  | added dependency running valid _ =>
    obtain rfl := one_new rfl
    exact .added dependency running valid
  | replaced named running labels served loop =>
    obtain rfl := one_new rfl
    exact .replaced named running labels served loop
  | told => exact (none_new (tell_length _ _)).elim
  | stepped => exact (none_new (List.length_set ..)).elim
  | called call advance =>
    have hlength := advance_length advance
    exact (none_new hlength).elim
  | ended => exact (none_new (List.length_modify ..)).elim
  | none | registered | removed | passed => exact (none_new rfl).elim

/-- What holds of all loops, lasts as they go on and holds of those that a move spawns, holds of all
loops after the move. -/
theorem Effect.forall_loops {Q : CheckLoop P → Prop} {s s' : Scheduler P} {m : Move P}
    (h : Effect s m s') (lasts : ∀ l l', l.GoesOn l' → Q l → Q l')
    (before : ∀ (i : Nat) (l : CheckLoop P), s.loops[i]? = some l → Q l)
    (spawned : ∀ l, Spawned s m l → Q l) (i : Nat) (l' : CheckLoop P)
    (hl' : s'.loops[i]? = some l') : Q l' := by
  rcases h.loopsGoOn.origin hl' with ⟨l, hl, hgo⟩ | new
  · exact lasts l l' hgo (before i l hl)
  · exact spawned l' (h.new new hl')

/-- A loop that is new has just been spawned. -/
theorem Effect.spawned {s s' : Scheduler P} {m : Move P} (h : Effect s m s') {i : Nat}
    (new : s.loops.length ≤ i) {l' : CheckLoop P} (hl' : s'.loops[i]? = some l') :
    ∃ d e probe outer, l' = CheckLoop.spawn d e probe outer := by
  cases h.new new hl' with
  | started | added | replaced => exact ⟨_, _, _, _, rfl⟩

end Scheduler

end HealthMonitor
