import HealthMonitor.Proofs.Scheduler.Loops

/-!
# The journal of a scheduler

Whatever happens in a loop is in the journal of its scheduler, with the instant at which it
happened. `Scheduler.happened` picks out one loop, `Scheduler.launches` the probes that it has
launched and `Scheduler.recordings` the checks that it has recorded. Only a step of a loop makes
anything happen in it (`mem_happened_of_effect`), so what is known of one step
(`CheckLoop.Stepped.launches`, `CheckLoop.Stepped.records`) is known of the journal.
-/

namespace HealthMonitor

/-- The deadline of the probe that an event launches. -/
def LoopEvent.deadline? : LoopEvent → Option Instant
  | .launched deadline => some deadline
  | _ => none

/-- Whether an event records a check. -/
def LoopEvent.isRecorded : LoopEvent → Bool
  | .recorded .. => true
  | _ => false

/-! ### The events of a step -/

namespace CheckLoop

variable {P : Type} {l : CheckLoop P} {x : Exporter} {now : Instant} {q : Progress P}

/-- A write to a place launches nothing. -/
private theorem deadline?_of_write {p : Publication} {place : Place}
    (h : l.write? x now p place = some q) {event : LoopEvent} (he : event ∈ q.events) :
    event.deadline? = none := by
  cases place with
  | latency =>
    simp only [write?, Option.map_eq_some_iff] at h
    obtain ⟨y, -, rfl⟩ := h
    cases he
  | status | detail | health =>
    cases h
    cases he
  | state =>
    cases h
    obtain rfl := List.mem_singleton.mp he
    rfl

/-- A step that launches a probe is one of a loop that is not to end, and the probe gets the
deadline that the loop sets then. -/
theorem Stepped.launches (h : Stepped l x now q) {event : LoopEvent} (he : event ∈ q.events)
    {deadline : Instant} (launched : event.deadline? = some deadline) :
    l.isCancelled now = false ∧ deadline = l.deadlineFrom now := by
  cases h with
  | ended | delayed | broke => cases he
  | launched _ _ going =>
    obtain rfl := List.mem_singleton.mp he
    exact ⟨going, (Option.some.inj launched).symm⟩
  | completed | rested =>
    obtain ⟨line, -, rfl⟩ := List.mem_map.mp he
    cases launched
  | wrote _ _ write => simp [deadline?_of_write write he] at launched

/-- Only a publishing loop records a check. -/
theorem Stepped.records (h : Stepped l x now q) {event : LoopEvent} (he : event ∈ q.events)
    (recorded : event.isRecorded = true) : l.isPublishing = true := by
  cases h with
  | ended | delayed | broke => cases he
  | launched =>
    obtain rfl := List.mem_singleton.mp he
    cases recorded
  | completed =>
    obtain ⟨line, -, rfl⟩ := List.mem_map.mp he
    cases recorded
  | wrote publishing | rested _ publishing => simp [isPublishing, publishing]

end CheckLoop

namespace Scheduler

variable {P : Type}

/-- What has happened in a loop and when, the latest first. -/
def happened (s : Scheduler P) (i : Nat) : List (Instant × LoopEvent) :=
  s.journal.filterMap fun h => if h.loop = some i then some (h.moment, h.event) else none

/-- The probes that a loop has launched: when, and with which deadline. -/
def launches (s : Scheduler P) (i : Nat) : List (Instant × Instant) :=
  (s.happened i).filterMap fun h => h.2.deadline?.map (h.1, ·)

/-- The instants at which a loop has recorded a check. -/
def recordings (s : Scheduler P) (i : Nat) : List Instant :=
  ((s.happened i).filter fun h => h.2.isRecorded).map Prod.fst

theorem mem_launches {s : Scheduler P} {i : Nat} {p : Instant × Instant} :
    p ∈ s.launches i ↔ ∃ event, (p.1, event) ∈ s.happened i ∧ event.deadline? = some p.2 := by
  simp only [launches, List.mem_filterMap, Option.map_eq_some_iff]
  constructor
  · rintro ⟨⟨moment, event⟩, hmem, deadline, hdeadline, rfl⟩
    exact ⟨event, hmem, hdeadline⟩
  · rintro ⟨event, hmem, hdeadline⟩
    exact ⟨(p.1, event), hmem, p.2, hdeadline, rfl⟩

theorem mem_recordings {s : Scheduler P} {i : Nat} {moment : Instant} :
    moment ∈ s.recordings i ↔
      ∃ event, (moment, event) ∈ s.happened i ∧ event.isRecorded = true := by
  simp only [recordings, List.mem_map, List.mem_filter]
  constructor
  · rintro ⟨⟨moment, event⟩, hmem, rfl⟩
    exact ⟨event, hmem⟩
  · rintro ⟨event, hmem⟩
    exact ⟨(moment, event), hmem, rfl⟩

/-! ### What a move adds to the journal -/

theorem note_happened (s : Scheduler P) (loop : Option Nat) (events : List LoopEvent) (i : Nat) :
    (s.note loop events).happened i =
      (if loop = some i then (events.map (s.now, ·)).reverse else []) ++ s.happened i := by
  simp only [happened, note, List.filterMap_append]
  congr 1
  split
  next hloop => simp [hloop, ← List.map_reverse, List.filterMap_map]
  next hloop => simp [hloop, ← List.map_reverse, List.filterMap_map]

/-- A line in the log happens in no loop. -/
@[simp] theorem log_happened (s : Scheduler P) (line : LogLine) (i : Nat) :
    (s.log line).happened i = s.happened i :=
  note_happened s none [.logged line] i

theorem noticeEnd_happened (s : Scheduler P) (j i : Nat) :
    (s.noticeEnd j).happened i = s.happened i := by
  unfold noticeEnd
  split
  · exact log_happened ..
  · rfl

/-- A step of a call makes nothing happen in a loop. -/
theorem advance_happened {s s' : Scheduler P} {c : Call} {after : Option Call}
    (h : Advance s c s' after) (i : Nat) : s'.happened i = s.happened i := by
  cases h with
  | joinedByStop | joined => exact noticeEnd_happened ..
  | stopReturned => exact log_happened ..
  | cleared => rw [clearPlace_eq]; rfl
  | signalled | retired => rfl
  | returned => exact log_happened ..

theorem begun_happened (s : Scheduler P) (outer : Option Instant) (i : Nat) :
    (s.begun outer).happened i = s.happened i := by
  rw [begun, log_happened, serveAll_frame]
  rfl

/-- **Only a step of a loop makes anything happen in it.** -/
theorem happened_of_not_driven {s s' : Scheduler P} {m : Move P} (h : Effect s m s') {i : Nat}
    (hm : m ≠ .loop i) : s'.happened i = s.happened i := by
  cases h with
  | none | registered | removed | replaced | ended | passed => rfl
  | started => exact begun_happened ..
  | told =>
    rw [tell_frame]
    rfl
  | added => exact log_happened ..
  | @stepped j l q loop step =>
    have hji : j ≠ i := fun h => hm (by rw [h])
    rw [note_happened]
    simp [happened, hji]
  | called _ advance => exact advance_happened advance i

/-- The step of a loop makes happen in it what the step says, at that instant. -/
theorem happened_of_driven {s : Scheduler P} {i : Nat} {l : CheckLoop P}
    {q : CheckLoop.Progress P} (hl : s.loops[i]? = some l)
    (hq : l.step s.metrics s.now = some q) :
    (s.move (.loop i)).happened i = (q.events.map (s.now, ·)).reverse ++ s.happened i := by
  rw [move_loop hl hq, note_happened, if_pos rfl]
  rfl

/-- What has happened in a loop after a move has happened before, or by a step of the loop then. -/
theorem mem_happened_of_effect {s s' : Scheduler P} {m : Move P} (h : Effect s m s') {i : Nat}
    {p : Instant × LoopEvent} (hp : p ∈ s'.happened i) :
    p ∈ s.happened i ∨ m = .loop i ∧ p.1 = s.now ∧ ∃ l q, s.loops[i]? = some l ∧
      CheckLoop.Stepped l s.metrics s.now q ∧ p.2 ∈ q.events := by
  by_cases hm : m = .loop i
  · subst hm
    cases h with
    | none => exact Or.inl hp
    | @stepped _ l q loop step =>
      rw [note_happened, if_pos rfl] at hp
      refine (List.mem_append.mp hp).symm.imp_right fun hnew => ?_
      obtain ⟨event, hevent, rfl⟩ := List.mem_map.mp (List.mem_reverse.mp hnew)
      exact ⟨rfl, rfl, l, q, loop, CheckLoop.stepped_of_step step, hevent⟩
  · exact Or.inl (happened_of_not_driven h hm ▸ hp)

/-- Nothing happens in a loop before it is there. -/
theorem happened_of_no_loop (x : Exporter) (defaults : CheckPlan) (ms : List (Move P)) {i : Nat}
    (none : ((fresh x defaults).run ms).loops.length ≤ i) :
    ((fresh x defaults).run ms).happened i = [] := by
  refine run_invariant (motive := fun _ s => s.loops.length ≤ i → s.happened i = [])
    (fun _ => rfl) (fun _ s m h hlength => ?_) ms none
  have heffect := effect_move s m
  have hbefore : s.loops.length ≤ i := Nat.le_trans heffect.loopsGoOn.1 hlength
  refine List.eq_nil_iff_forall_not_mem.mpr fun p hp => ?_
  rcases mem_happened_of_effect heffect hp with hp | ⟨-, -, l, q, hl, -⟩
  · simp [h hbefore] at hp
  · exact absurd (List.getElem?_eq_some_iff.mp hl).1 (Nat.not_lt.mpr hbefore)

end Scheduler

end HealthMonitor
