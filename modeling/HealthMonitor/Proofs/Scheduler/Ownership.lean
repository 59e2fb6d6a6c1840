import HealthMonitor.Proofs.Scheduler.Loops
import Mathlib.Data.List.Perm.Basic

/-!
# Who answers for a loop

Every loop that is not over has somebody who answers for it: it is in service, or a call in flight
that takes it out of service waits for its end. `Owned` says so, together with what the count of
such calls is for and who waits for the loops once everything is stopped. `owned_run` proves it of
every run: each of register, start, add, remove, update and stop hands its loops over in the same
step in which it takes or gives up the keys.
-/

namespace HealthMonitor

/-- The loops whose end a call in flight waits for. -/
def Call.awaited : Call → List Nat
  | .stopping loops => loops
  | .retiring left _ _ => left.map Retired.loop

/-- Whether a call in flight is a stop. -/
def Call.isStop : Call → Bool
  | .stopping _ => true
  | .retiring .. => false

namespace Scheduler

variable {P : Type}

/-- The loop with a number is in service. -/
def Serves (s : Scheduler P) (i : Nat) : Prop :=
  ∃ key, s.slots.get? key = some i

/-- Somebody answers for every loop that is not over. -/
structure Owned (s : Scheduler P) : Prop where
  /-- Before the start there is nothing to answer for. -/
  idle : s.lifecycle = .idle → s.loops = [] ∧ s.slots = Dictionary.empty ∧ s.calls = []
  slot : ∀ i, s.Serves i → i < s.loops.length
  held : ∀ c ∈ s.calls, ∀ i ∈ c.awaited, i < s.loops.length
  loop : ∀ (i : Nat) (l : CheckLoop P), s.loops[i]? = some l → l.isDone = false →
    s.Serves i ∨ ∃ c ∈ s.calls, c.isStop = false ∧ i ∈ c.awaited
  /-- A stop waits for the loops in service. -/
  stopped : s.lifecycle = .stopped → ∀ (i : Nat) (l : CheckLoop P), s.loops[i]? = some l →
    l.isDone = false → s.Serves i → ∃ c ∈ s.calls, c.isStop = true ∧ i ∈ c.awaited
  count : s.retiring = s.calls.countP fun c => !c.isStop
  /-- There is one stop at most, and only once everything is stopped. -/
  stops : s.calls.countP Call.isStop ≤ if s.lifecycle = .stopped then 1 else 0
  cleared : ∀ (r : Retired) (rest : List Retired) (left : List Exporter.Removal)
    (report : LogLine), Call.retiring (r :: rest) (.clear left) report ∈ s.calls →
    s.isDone r.loop = true

/-! ### Calls in flight -/

/-- A call in flight after a step was in flight before, or it is what the step left of its own. -/
theorem mem_of_mem_callsAfter {calls : List Call} {j : Nat} {after : Option Call} {c : Call}
    (h : c ∈ callsAfter calls j after) : c ∈ calls ∨ after = some c := by
  cases after with
  | none => exact Or.inl (List.mem_of_mem_eraseIdx h)
  | some c' => exact (List.mem_or_eq_of_mem_set h).imp_right fun h => by rw [h]

/-- A call other than the one that has taken a step is still in flight. -/
theorem mem_callsAfter {calls : List Call} {j : Nat} {after : Option Call} {c c' : Call}
    (hc : calls[j]? = some c) (h : c' ∈ calls) : c' = c ∨ c' ∈ callsAfter calls j after := by
  obtain ⟨k, hk⟩ := List.getElem?_of_mem h
  by_cases hkj : k = j
  · subst hkj
    exact Or.inl (Option.some.inj (hk.symm.trans hc))
  · refine Or.inr ?_
    cases after with
    | none => exact List.mem_eraseIdx_iff_getElem?.mpr ⟨k, hkj, hk⟩
    | some c'' =>
      have hk' : (calls.set j c'')[k]? = some c' := by rwa [List.getElem?_set_ne (Ne.symm hkj)]
      exact List.mem_of_getElem? hk'

theorem mem_callsAfter_some {calls : List Call} {j : Nat} {c c' : Call}
    (hc : calls[j]? = some c) : c' ∈ callsAfter calls j (some c') :=
  List.mem_set (List.getElem?_eq_some_iff.mp hc).1 c'

/-- Up to their order, the calls after a step have what is left in the place of the call that took
it. -/
theorem callsAfter_perm {calls : List Call} {j : Nat} {c : Call} (hc : calls[j]? = some c)
    (after : Option Call) :
    (c :: callsAfter calls j after).Perm (after.toList ++ calls) := by
  obtain ⟨hj, rfl⟩ := List.getElem?_eq_some_iff.mp hc
  cases after with
  | none => exact List.getElem_cons_eraseIdx_perm hj
  | some c' =>
    calc calls[j] :: calls.set j c'
      _ |>.Perm (calls[j] :: c' :: calls.eraseIdx j) := (List.set_perm_cons_eraseIdx hj c').cons _
      _ |>.Perm (c' :: calls[j] :: calls.eraseIdx j) := List.Perm.swap ..
      _ |>.Perm (c' :: calls) := (List.getElem_cons_eraseIdx_perm hj).cons _

/-! ### Steps of calls -/

/-- A step of a call leaves the life, the keys and the number of loops alone. -/
theorem advance_frame {s s' : Scheduler P} {c : Call} {after : Option Call}
    (h : Advance s c s' after) :
    s'.lifecycle = s.lifecycle ∧ s'.slots = s.slots ∧ s'.loops.length = s.loops.length := by
  have hlength := advance_length h
  obtain ⟨_, _, _, _, rfl⟩ := advance_eq h
  exact ⟨rfl, rfl, hlength⟩

/-- A call waits for the same loops after a step, but for one that is over. -/
theorem advance_awaited {s s' : Scheduler P} {c : Call} {after : Option Call} (hs : Owned s)
    (hc : c ∈ s.calls) (h : Advance s c s' after) {i : Nat} (hi : i ∈ c.awaited)
    (alive : s.isDone i = false) :
    ∃ c', after = some c' ∧ c'.isStop = c.isStop ∧ i ∈ c'.awaited := by
  cases h with
  | @joinedByStop k rest done =>
    rcases List.mem_cons.mp hi with rfl | hi
    · simp [done] at alive
    · exact ⟨_, rfl, rfl, hi⟩
  | stopReturned => cases hi
  | signalled => exact ⟨_, rfl, rfl, hi⟩
  | joined => exact ⟨_, rfl, rfl, hi⟩
  | cleared => exact ⟨_, rfl, rfl, hi⟩
  | @retired r rest report =>
    rcases List.mem_cons.mp hi with rfl | hi
    · simp [hs.cleared r rest [] report hc] at alive
    · exact ⟨_, rfl, rfl, hi⟩
  | returned => cases hi

/-- A step of a call adds nothing to what it waits for. -/
theorem awaited_of_advance {s s' : Scheduler P} {c c' : Call}
    (h : Advance s c s' (some c')) {i : Nat} (hi : i ∈ c'.awaited) : i ∈ c.awaited := by
  cases h with
  | joinedByStop | retired => exact List.mem_cons_of_mem _ hi
  | signalled | joined | cleared => exact hi

/-- A stop goes on as a stop, and any other call as one that takes loops out. -/
theorem isStop_of_advance {s s' : Scheduler P} {c c' : Call} (h : Advance s c s' (some c')) :
    c'.isStop = c.isStop := by
  cases h <;> rfl

/-- A call that takes loops out is counted until it returns. -/
theorem advance_retiring {s s' : Scheduler P} {c : Call} {after : Option Call}
    (h : Advance s c s' after) :
    s'.retiring = s.retiring - (if c.isStop = false ∧ after = none then 1 else 0) := by
  cases h with
  | joinedByStop | joined =>
    obtain ⟨journal, h⟩ := noticeEnd_eq s _
    rw [h]
    simp
  | cleared =>
    rw [clearPlace_eq]
    simp
  | stopReturned => simp [Call.isStop, log, note]
  | signalled | retired => simp [modifyLoop]
  | returned => simp [Call.isStop, log, note]

/-- The life of a scheduler only goes forward. -/
theorem lifecycle_of_effect {s s' : Scheduler P} {m : Move P} (h : Effect s m s') :
    s'.lifecycle = s.lifecycle ∨ s.lifecycle = .idle ∧ s'.lifecycle = .running ∨
      s.lifecycle = .running ∧ s'.lifecycle = .stopped := by
  cases h with
  | started _ idle =>
    refine Or.inr (Or.inl ⟨idle, ?_⟩)
    rw [begun, serveAll_frame]
    rfl
  | told running => exact Or.inr (Or.inr ⟨running, rfl⟩)
  | called _ advance =>
    have hlifecycle := (advance_frame advance).1
    exact Or.inl hlifecycle
  | none | registered | added | removed | replaced | stepped | ended | passed => exact Or.inl rfl

/-- What has been started is never again about to start. -/
theorem not_idle_of_effect {s s' : Scheduler P} {m : Move P} (h : Effect s m s')
    (started : s.lifecycle ≠ .idle) : s'.lifecycle ≠ .idle := by
  rcases lifecycle_of_effect h with h | ⟨idle, -⟩ | ⟨-, h⟩
  · rwa [h]
  · exact absurd idle started
  · rw [h]
    decide

/-! ### Every move keeps the order -/

theorem isDone_eq_false_iff {s : Scheduler P} {i : Nat} :
    s.isDone i = false ↔ ∃ l, s.loops[i]? = some l ∧ l.isDone = false := by
  unfold isDone
  cases s.loops[i]? <;> simp

theorem isDone_of_goOn {s s' : Scheduler P} (h : LoopsGoOn s.loops s'.loops) {i : Nat}
    (hi : i < s.loops.length) (done : s.isDone i = true) : s'.isDone i = true := by
  obtain ⟨l', hl', hgo⟩ := h.2 i s.loops[i] (List.getElem?_eq_getElem hi)
  have hd : s.loops[i].isDone = true := by
    simpa [Scheduler.isDone, List.getElem?_eq_getElem hi] using done
  simp [Scheduler.isDone, hl', hgo.isDone hd]

/-- A loop that is not over was not over before, unless it is new. -/
theorem alive_of_goOn {s s' : Scheduler P} (h : LoopsGoOn s.loops s'.loops) {i : Nat}
    {l' : CheckLoop P} (hl' : s'.loops[i]? = some l') (alive : l'.isDone = false) :
    (∃ l, s.loops[i]? = some l ∧ l.isDone = false) ∨ s.loops.length ≤ i := by
  refine (h.origin hl').imp_left fun ⟨l, hl, hgo⟩ => ⟨l, hl, ?_⟩
  by_contra hd
  simp [hgo.isDone (by simpa using hd)] at alive

/-- Where no loop is new, one that is not over was not over before. -/
theorem alive_of_same {s s' : Scheduler P} (h : LoopsGoOn s.loops s'.loops)
    (hlength : s'.loops.length = s.loops.length) {i : Nat} {l' : CheckLoop P}
    (hl' : s'.loops[i]? = some l') (alive : l'.isDone = false) :
    ∃ l, s.loops[i]? = some l ∧ l.isDone = false := by
  refine (alive_of_goOn h hl' alive).resolve_right fun hi => ?_
  exact absurd (List.getElem?_eq_some_iff.mp hl').1 (by omega)

/-- A loop that a call has waited for stays over. -/
theorem Owned.cleared_goOn {s s' : Scheduler P} (h : Owned s) (hgo : LoopsGoOn s.loops s'.loops)
    {r : Retired} {rest : List Retired} {left : List Exporter.Removal} {report : LogLine}
    (hc : Call.retiring (r :: rest) (.clear left) report ∈ s.calls) : s'.isDone r.loop = true :=
  isDone_of_goOn hgo (h.held _ hc _ (by simp [Call.awaited])) (h.cleared r rest left report hc)

/-- What keeps the keys, the calls and the number of loops keeps the order. -/
private theorem Owned.of_frame {s s' : Scheduler P} (h : Owned s)
    (hgo : LoopsGoOn s.loops s'.loops) (hlength : s'.loops.length = s.loops.length)
    (hlife : s'.lifecycle = s.lifecycle) (hslots : s'.slots = s.slots) (hcalls : s'.calls = s.calls)
    (hretiring : s'.retiring = s.retiring) : Owned s' := by
  refine ⟨fun idle => ?_, fun i hi => ?_, fun c hc i hi => ?_, fun i l' hl' alive => ?_,
    fun stopped i l' hl' alive hi => ?_, by rw [hretiring, hcalls, h.count],
    by rw [hcalls, hlife]; exact h.stops, fun r rest left report hc => ?_⟩
  · obtain ⟨hloops, hs, hc⟩ := h.idle (hlife ▸ idle)
    exact ⟨List.eq_nil_of_length_eq_zero (by rw [hlength, hloops]; rfl), hslots ▸ hs, hcalls ▸ hc⟩
  · exact hlength ▸ h.slot i (by simpa only [Serves, hslots] using hi)
  · exact hlength ▸ h.held c (hcalls ▸ hc) i hi
  · obtain ⟨l, hl, hd⟩ := alive_of_same hgo hlength hl' alive
    simpa only [Serves, hslots, hcalls] using h.loop i l hl hd
  · obtain ⟨l, hl, hd⟩ := alive_of_same hgo hlength hl' alive
    rw [hcalls]
    exact h.stopped (hlife ▸ stopped) i l hl hd (by simpa only [Serves, hslots] using hi)
  · rw [hcalls] at hc
    exact h.cleared_goOn hgo hc

/-- A step of a call keeps the count of the calls that take loops out of service. -/
private theorem retiring_callsAfter {s s' : Scheduler P} {j : Nat} {c : Call} {after : Option Call}
    (h : Owned s) (hc : s.calls[j]? = some c) (ha : Advance s c s' after) :
    s'.retiring = (callsAfter s.calls j after).countP fun c => !c.isStop := by
  have hperm := (callsAfter_perm hc after).countP_eq fun c => !c.isStop
  rw [advance_retiring ha, h.count]
  cases after with
  | none =>
    rw [List.countP_cons] at hperm
    cases hstop : c.isStop <;> simp_all
    omega
  | some c' =>
    have hstop := isStop_of_advance ha
    simp only [Option.toList_some, List.singleton_append, List.countP_cons, hstop] at hperm
    simp only [reduceCtorEq, and_false, if_false, Nat.sub_zero]
    omega

/-- A step of a call makes no stop. -/
private theorem stops_callsAfter {s s' : Scheduler P} {j : Nat} {c : Call} {after : Option Call}
    (hc : s.calls[j]? = some c) (ha : Advance s c s' after) :
    (callsAfter s.calls j after).countP Call.isStop ≤ s.calls.countP Call.isStop := by
  have hperm := (callsAfter_perm hc after).countP_eq Call.isStop
  cases after with
  | none =>
    rw [List.countP_cons] at hperm
    simp only [Option.toList_none, List.nil_append] at hperm
    omega
  | some c' =>
    have hstop := isStop_of_advance ha
    simp only [Option.toList_some, List.singleton_append, List.countP_cons, hstop] at hperm
    omega

/-- A step of a call keeps the order. -/
private theorem Owned.called {s s' : Scheduler P} {j : Nat} {c : Call} {after : Option Call}
    (h : Owned s) (hc : s.calls[j]? = some c) (ha : Advance s c s' after) :
    Owned { s' with calls := callsAfter s.calls j after } := by
  have hgo : LoopsGoOn s.loops s'.loops := (Effect.called hc ha).loopsGoOn
  have hmem : c ∈ s.calls := List.mem_of_getElem? hc
  obtain ⟨hlife, hslots, hlength⟩ := advance_frame ha
  -- a loop that a call waits for is still waited for, by the same kind of call
  have waited {i : Nat} (alive : s.isDone i = false) {kind : Bool}
      (hw : ∃ c ∈ s.calls, c.isStop = kind ∧ i ∈ c.awaited) :
      ∃ c ∈ callsAfter s.calls j after, c.isStop = kind ∧ i ∈ c.awaited := by
    obtain ⟨c', hc', hkind, hi⟩ := hw
    rcases mem_callsAfter hc hc' with rfl | hc'
    · obtain ⟨c'', rfl, hkind', hi'⟩ := advance_awaited h hmem ha hi alive
      exact ⟨c'', mem_callsAfter_some hc, hkind'.trans hkind, hi'⟩
    · exact ⟨c', hc', hkind, hi⟩
  refine ⟨fun idle => ?_, fun i hi => ?_, fun c' hc' i hi => ?_, fun i l' hl' alive => ?_,
    fun stopped i l' hl' alive hi => ?_, ?_, ?_, fun r rest left report hr => ?_⟩
  · have hnil := (h.idle (hlife.symm.trans idle)).2.2
    simp [hnil] at hc
  · exact hlength ▸ h.slot i (by simpa only [Serves, hslots] using hi)
  · rw [show ({ s' with calls := _ } : Scheduler P).loops = s'.loops from rfl, hlength]
    rcases mem_of_mem_callsAfter hc' with hc' | rfl
    · exact h.held c' hc' i hi
    · exact h.held c hmem i (awaited_of_advance ha hi)
  · obtain ⟨l, hl, hd⟩ := alive_of_same hgo hlength hl' alive
    have hd' : s.isDone i = false := isDone_eq_false_iff.mpr ⟨l, hl, hd⟩
    exact (h.loop i l hl hd).imp (by simp only [Serves, hslots]; exact id) (waited hd')
  · obtain ⟨l, hl, hd⟩ := alive_of_same hgo hlength hl' alive
    have hd' : s.isDone i = false := isDone_eq_false_iff.mpr ⟨l, hl, hd⟩
    have hi' : s.Serves i := by simpa only [Serves, hslots] using hi
    exact waited hd' (h.stopped (hlife ▸ stopped) i l hl hd hi')
  · exact (retiring_callsAfter h hc ha : s'.retiring = _)
  · rw [show ({ s' with calls := _ } : Scheduler P).lifecycle = s.lifecycle from hlife]
    exact Nat.le_trans (stops_callsAfter hc ha) h.stops
  · rcases mem_of_mem_callsAfter hr with hr | rfl
    · exact h.cleared_goOn hgo hr
    · -- only a call that has just joined a loop, or goes on to clear its places, is at this stage
      cases ha with
      | joined done => exact isDone_of_goOn hgo (h.held _ hmem _ (by simp [Call.awaited])) done
      | cleared => exact h.cleared_goOn hgo hmem

/-- Serving a free key while running keeps the order: the new loop is in service. -/
theorem Owned.serve {s : Scheduler P} (h : Owned s) (running : s.lifecycle = .running)
    {key : String} (free : s.slots.get? key = none) (l : CheckLoop P) :
    Owned (s.serve key l) := by
  have hserves (i : Nat) : (s.serve key l).Serves i ↔ s.Serves i ∨ i = s.loops.length := by
    simp only [Serves, Scheduler.serve, Dictionary.get?_insert]
    constructor
    · rintro ⟨k, hk⟩
      split at hk
      · exact Or.inr (Option.some.inj hk).symm
      · exact Or.inl ⟨k, hk⟩
    · rintro (⟨k, hk⟩ | rfl)
      · refine ⟨k, ?_⟩
        rw [if_neg (fun hkey => by simp [hkey ▸ hk] at free), hk]
      · exact ⟨key, by simp⟩
  have hlength : (s.serve key l).loops.length = s.loops.length + 1 := by simp [Scheduler.serve]
  have hgo : LoopsGoOn s.loops (s.serve key l).loops := loopsRelated_append lasts_goesOn ..
  have notIdle : s.lifecycle ≠ .idle := by simp [running]
  have notStopped : s.lifecycle ≠ .stopped := by simp [running]
  refine ⟨fun idle => absurd idle notIdle, fun i hi => ?_, fun c hc i hi => ?_,
    fun i l' hl' alive => ?_, fun stopped => absurd stopped notStopped, h.count, h.stops,
    fun r rest left report hc => ?_⟩
  · rcases (hserves i).mp hi with hi | rfl
    · have := h.slot i hi
      omega
    · omega
  · have := h.held c hc i hi
    omega
  · rcases alive_of_goOn hgo hl' alive with ⟨l₀, hl₀, hd⟩ | hi
    · exact (h.loop i l₀ hl₀ hd).imp_left fun hi => (hserves i).mpr (Or.inl hi)
    · have := (List.getElem?_eq_some_iff.mp hl').1
      exact Or.inl ((hserves i).mpr (Or.inr (by omega)))
  · exact h.cleared_goOn hgo hc

/-- Taking loops out of service keeps the order, if a new call waits for all of them. -/
theorem Owned.takeOut {s : Scheduler P} (h : Owned s) (running : s.lifecycle = .running)
    {slots : Dictionary String Nat} {rs : List Retired} (report : LogLine)
    (fewer : ∀ key i, slots.get? key = some i → s.slots.get? key = some i)
    (taken : ∀ i, s.Serves i → (∃ key, slots.get? key = some i) ∨ i ∈ rs.map Retired.loop)
    (valid : ∀ i ∈ rs.map Retired.loop, i < s.loops.length) :
    Owned (({ s with slots := slots } : Scheduler P).retire rs report) := by
  have notIdle : s.lifecycle ≠ .idle := by simp [running]
  have notStopped : s.lifecycle ≠ .stopped := by simp [running]
  refine ⟨fun idle => absurd idle notIdle, fun i hi => ?_, fun c hc i hi => ?_,
    fun i l hl alive => ?_, fun stopped => absurd stopped notStopped, ?_, ?_,
    fun r rest left report hc => ?_⟩
  · obtain ⟨key, hkey⟩ := hi
    exact h.slot i ⟨key, fewer key i hkey⟩
  · rcases List.mem_append.mp hc with hc | hc
    · exact h.held c hc i hi
    · obtain rfl := List.mem_singleton.mp hc
      exact valid i hi
  · have hnew : Call.retiring rs .signal report ∈ s.calls ++ [Call.retiring rs .signal report] := by
      simp
    rcases h.loop i l hl alive with hi | ⟨c, hc, hkind, hi⟩
    · exact (taken i hi).imp id fun hi => ⟨_, hnew, rfl, hi⟩
    · exact Or.inr ⟨c, List.mem_append_left _ hc, hkind, hi⟩
  · simp [Scheduler.retire, h.count, Call.isStop]
  · refine Nat.le_trans (Nat.le_of_eq ?_) h.stops
    simp [Scheduler.retire, Call.isStop]
  · rcases List.mem_append.mp hc with hc | hc
    · exact h.cleared r rest left report hc
    · simp at hc

/-- A loop that makes way is retired with its series to be deleted, unless the new endpoint has the
same. -/
theorem mem_retired {s : Scheduler P} {d : Dependency} {e : Endpoint} {is : List Nat}
    {r : Retired} :
    r ∈ is.flatMap (s.retiredFor d e) ↔
      ∃ l, r.loop ∈ is ∧ s.loops[r.loop]? = some l ∧
        r.deleteSeries = !sameSeries l.dependency l.endpoint d e := by
  simp only [List.mem_flatMap, retiredFor]
  constructor
  · rintro ⟨i, hi, hr⟩
    split at hr
    next l hl =>
      obtain rfl := List.mem_singleton.mp hr
      exact ⟨l, hi, hl, rfl⟩
    next => cases hr
  · rintro ⟨l, hi, hl, hd⟩
    exact ⟨r.loop, hi, by simp [hl, ← hd]⟩

/-- Putting an endpoint in the place of another takes the loops out that make way, and then serves
a key that is free. -/
theorem replaced_eq (s : Scheduler P) (key : String) (i : Nat) (old : CheckLoop P) (e : Endpoint)
    (probe : P) {d : Dependency} (hd : d = { old.dependency with endpoints := [e] }) :
    s.replaced key i old e probe =
      (({ s with slots := (s.slots.erase key).erase (d.key e) } : Scheduler P).retire
        ((s.makingWay key (d.key e) i).flatMap (s.retiredFor d e))
        (.endpointUpdated key (d.key e))).serve (d.key e) (CheckLoop.spawn d e probe none) := by
  simp only [replaced, Scheduler.retire, Scheduler.serve, ← hd, Dictionary.insert_erase_self]

/-- A loop that does not make way is under neither of the two keys. -/
theorem get?_of_not_makingWay {s : Scheduler P} {key newKey k : String} {i j : Nat}
    (served : s.slots.get? key = some i) (hk : s.slots.get? k = some j)
    (hway : j ∉ s.makingWay key newKey i) :
    ((s.slots.erase key).erase newKey).get? k = some j := by
  simp only [makingWay, List.mem_cons, Option.mem_toList, Dictionary.get?_erase, not_or] at hway
  have hkey : k ≠ key := fun hkk => hway.1 (Option.some.inj ((hkk ▸ hk).symm.trans served))
  have hnew : k ≠ newKey := fun hkk => hway.2 (by
    rw [if_neg (fun hd => hkey (hkk.trans hd)), ← hkk, hk])
  simp [hkey, hnew, hk]

/-- Putting an endpoint in the place of another keeps the order. -/
theorem Owned.replaced {s : Scheduler P} (h : Owned s) (running : s.lifecycle = .running)
    {key : String} {i : Nat} {old : CheckLoop P} (served : s.slots.get? key = some i)
    (e : Endpoint) (probe : P) : Owned (s.replaced key i old e probe) := by
  rw [replaced_eq s key i old e probe rfl]
  generalize { old.dependency with endpoints := [e] } = d
  -- first all that make way are handed to the call, then the key is free for the new loop
  refine (h.takeOut running _ (fun k j hk => ?_) (fun j hj => ?_) fun j hj => ?_).serve running
    (by simp [Scheduler.retire]) _
  · simp only [Dictionary.get?_erase] at hk
    split at hk
    · cases hk
    · split at hk
      · cases hk
      · exact hk
  · obtain ⟨k, hk⟩ := hj
    obtain ⟨l, hl⟩ : ∃ l, s.loops[j]? = some l :=
      ⟨_, List.getElem?_eq_getElem (h.slot j ⟨k, hk⟩)⟩
    by_cases hway : j ∈ s.makingWay key (d.key e) i
    · exact Or.inr (List.mem_map.mpr ⟨⟨j, _⟩, mem_retired.mpr ⟨l, hway, hl, rfl⟩, rfl⟩)
    · exact Or.inl ⟨k, get?_of_not_makingWay served hk hway⟩
  · obtain ⟨r, hr, rfl⟩ := List.mem_map.mp hj
    obtain ⟨l, -, hl, -⟩ := mem_retired.mp hr
    exact (List.getElem?_eq_some_iff.mp hl).1

/-- What serving one free key keeps is kept by serving distinct free keys. -/
theorem serveAll_induction {motive : Scheduler P → Prop} {es : List (String × CheckLoop P)}
    (distinct : es.Pairwise fun a b => a.1 < b.1) {s : Scheduler P} (start : motive s)
    (free : ∀ e ∈ es, s.slots.get? e.1 = none)
    (step : ∀ s : Scheduler P, ∀ e ∈ es, motive s → s.slots.get? e.1 = none →
      motive (s.serve e.1 e.2)) : motive (s.serveAll es) := by
  induction es generalizing s with
  | nil => exact start
  | cons e es ih =>
    obtain ⟨hhead, htail⟩ := List.pairwise_cons.mp distinct
    have hfree (f : String × CheckLoop P) (hf : f ∈ es) :
        (s.serve e.1 e.2).slots.get? f.1 = none := by
      have hne : f.1 ≠ e.1 := fun h => Std.lt_irrefl (h ▸ hhead f hf)
      simpa [serve, hne] using free f (by simp [hf])
    exact ih htail (step s e (by simp) start (free e (by simp))) hfree fun s f hf =>
      step s f (by simp [hf])

/-- A scheduler that is about to start is in order, with nothing to answer for. -/
private theorem Owned.opened {s : Scheduler P} (h : Owned s) (idle : s.lifecycle = .idle) :
    Owned ({ s with lifecycle := .running, pending := [] } : Scheduler P) := by
  obtain ⟨hloops, hslots, hcalls⟩ := h.idle idle
  refine ⟨nofun, fun i hi => ?_, fun c hc => ?_, fun i l hl => ?_, nofun, h.count,
    by simp [hcalls], fun r rest left report hr => ?_⟩
  · obtain ⟨key, hkey⟩ := hi
    simp [hslots] at hkey
  · simp [hcalls] at hc
  · simp [hloops] at hl
  · simp [hcalls] at hr

/-- A start serves its loops one after another, each under a free key of a scheduler in order. -/
theorem begun_induction {s : Scheduler P} (h : Owned s) (idle : s.lifecycle = .idle)
    (outer : Option Instant) {motive : Scheduler P → Prop}
    (start : motive { s with lifecycle := .running, pending := [] })
    (step : ∀ s' : Scheduler P, ∀ e ∈ (s.startLoops outer).entries, Owned s' → motive s' →
      s'.slots.get? e.1 = none → motive (s'.serve e.1 e.2)) :
    ∃ s' : Scheduler P, s.begun outer = s'.log (.started (s.startLoops outer).size) ∧ Owned s' ∧
      motive s' := by
  have hall := serveAll_induction
    (motive := fun s' => Owned s' ∧ s'.lifecycle = .running ∧ motive s')
    (s.startLoops outer).sorted (s := { s with lifecycle := .running, pending := [] })
    ⟨h.opened idle, rfl, start⟩ (by simp [(h.idle idle).2.1]) fun s' e he hs free =>
      ⟨hs.1.serve hs.2.1 free e.2, hs.2.1, step s' e he hs.1 hs.2.2 free⟩
  exact ⟨_, rfl, hall.1, hall.2.2⟩

private theorem Owned.begun {s : Scheduler P} (h : Owned s) (idle : s.lifecycle = .idle)
    (outer : Option Instant) : Owned (s.begun outer) := by
  obtain ⟨s', hs', howned, -⟩ := begun_induction h idle outer (motive := fun _ => True) trivial
    fun _ _ _ _ _ _ => trivial
  rw [hs']
  exact howned.of_frame (.refl lasts_goesOn _) rfl rfl rfl rfl rfl

/-- The loops that a stop waits for are those in service. -/
theorem mem_serving {s : Scheduler P} {i : Nat} : i ∈ s.serving ↔ s.Serves i := by
  simp only [serving, Serves, List.mem_map]
  constructor
  · rintro ⟨⟨key, i⟩, he, rfl⟩
    exact ⟨key, Dictionary.mem_entries_iff.mp he⟩
  · rintro ⟨key, hkey⟩
    exact ⟨(key, i), Dictionary.mem_entries_iff.mpr hkey, rfl⟩

/-- The table of loops in service has each under its key. -/
theorem mem_inService {s : Scheduler P} {key : String} {l : CheckLoop P} :
    (key, l) ∈ s.inService ↔ ∃ i, s.slots.get? key = some i ∧ s.loops[i]? = some l := by
  simp only [inService, List.mem_filterMap, Option.map_eq_some_iff, Prod.mk.injEq]
  constructor
  · rintro ⟨⟨key, i⟩, he, l, hl, rfl, rfl⟩
    exact ⟨i, Dictionary.mem_entries_iff.mp he, hl⟩
  · rintro ⟨i, hi, hl⟩
    exact ⟨(key, i), Dictionary.mem_entries_iff.mpr hi, l, hl, rfl, rfl⟩

/-- The details are the statuses of the loops in service. -/
theorem mem_details {s : Scheduler P} {key : String} {status : EndpointStatus} :
    (key, status) ∈ s.details ↔ ∃ i ∈ s.slots.get? key, ∃ l ∈ s.loops[i]?,
      status = EndpointStatus.ofState l.dependency l.endpoint l.state := by
  simp only [details, List.mem_map, Prod.mk.injEq]
  constructor
  · rintro ⟨⟨key, l⟩, hmem, rfl, rfl⟩
    obtain ⟨i, hi, hl⟩ := mem_inService.mp hmem
    exact ⟨i, hi, l, hl, rfl⟩
  · rintro ⟨i, hi, l, hl, rfl⟩
    exact ⟨(key, l), mem_inService.mpr ⟨i, hi, hl⟩, rfl, rfl⟩

/-- The health is that of the loops in service that have one. -/
theorem mem_health {s : Scheduler P} {key : String} {healthy : Bool} :
    (key, healthy) ∈ s.health ↔ ∃ i ∈ s.slots.get? key, ∃ l ∈ s.loops[i]?,
      l.state.tracker.healthy = some healthy := by
  simp only [health, List.mem_filterMap, Option.map_eq_some_iff, Prod.mk.injEq]
  constructor
  · rintro ⟨⟨key, l⟩, hmem, healthy, hhealthy, rfl, rfl⟩
    obtain ⟨i, hi, hl⟩ := mem_inService.mp hmem
    exact ⟨i, hi, l, hl, hhealthy⟩
  · rintro ⟨i, hi, l, hl, hhealthy⟩
    exact ⟨(key, l), mem_inService.mpr ⟨i, hi, hl⟩, healthy, hhealthy, rfl, rfl⟩

/-- A stop keeps the order: it waits for all loops in service. -/
private theorem Owned.told {s : Scheduler P} (h : Owned s) (running : s.lifecycle = .running) :
    Owned { s.tell s.serving with
      lifecycle := .stopped
      calls := s.calls ++ [.stopping s.serving] } := by
  have hgo := loopsRelated_tell lasts_goesOn s s.serving
  have hlength := tell_length s s.serving
  have hmem : Call.stopping s.serving ∈ s.calls ++ [Call.stopping s.serving] := by simp
  rw [tell_frame]
  refine ⟨nofun, fun i hi => ?_, fun c hc i hi => ?_, fun i l' hl' alive => ?_,
    fun _ i l' hl' alive hi => ⟨_, hmem, rfl, mem_serving.mpr hi⟩, ?_, ?_,
    fun r rest left report hc => ?_⟩
  · exact hlength ▸ h.slot i hi
  · rw [show ({ s with loops := _, lifecycle := _, calls := _ } : Scheduler P).loops =
      (s.tell s.serving).loops from rfl, hlength]
    rcases List.mem_append.mp hc with hc | hc
    · exact h.held c hc i hi
    · obtain rfl := List.mem_singleton.mp hc
      exact h.slot i (mem_serving.mp hi)
  · obtain ⟨l, hl, hd⟩ := alive_of_same hgo hlength hl' alive
    refine (h.loop i l hl hd).imp id ?_
    rintro ⟨c, hc, hkind, hi⟩
    exact ⟨c, List.mem_append_left _ hc, hkind, hi⟩
  · simp [h.count, Call.isStop]
  · have hnone := h.stops
    simp only [running, reduceCtorEq, if_false, Nat.le_zero] at hnone
    simp [hnone, Call.isStop]
  · rcases List.mem_append.mp hc with hc | hc
    · exact h.cleared_goOn hgo hc
    · simp at hc

/-- **Every move keeps the order.** -/
theorem owned_move {s s' : Scheduler P} {m : Move P} (h : Owned s) (hm : Effect s m s') :
    Owned s' := by
  have hgo := hm.loopsGoOn
  cases hm with
  | none => exact h
  | registered => exact h.of_frame hgo rfl rfl rfl rfl rfl
  | started outer idle => exact h.begun idle outer
  | told running => exact h.told running
  | added _ running _ free =>
    exact (h.serve running free _).of_frame (.refl lasts_goesOn _) rfl rfl rfl rfl rfl
  | @removed key name host port i named running served =>
    refine h.takeOut running _ (fun k j hk => ?_) (fun j hj => ?_) fun j hj => ?_
    · simp only [Dictionary.get?_erase] at hk
      split at hk
      · cases hk
      · exact hk
    · obtain ⟨k, hk⟩ := hj
      by_cases hkey : k = key
      · subst hkey
        exact Or.inr (by simpa using Option.some.inj (hk.symm.trans served))
      · exact Or.inl ⟨k, by simp [hkey, hk]⟩
    · obtain rfl : j = i := by simpa using hj
      exact h.slot j ⟨key, served⟩
  | replaced _ running _ served _ => exact h.replaced running served _ _
  | stepped loop step => exact h.of_frame hgo (by simp [note]) rfl rfl rfl rfl
  | called hc ha => exact h.called hc ha
  | ended => exact h.of_frame hgo (by simp [endProbe, modifyLoop]) rfl rfl rfl rfl
  | passed => exact h.of_frame hgo rfl rfl rfl rfl rfl

theorem owned_fresh (x : Exporter) (defaults : CheckPlan) :
    Owned (fresh x defaults : Scheduler P) where
  idle _ := ⟨rfl, rfl, rfl⟩
  slot i hi := by obtain ⟨key, hkey⟩ := hi; simp [fresh] at hkey
  held c hc := by simp [fresh] at hc
  loop i l hl := by simp [fresh] at hl
  stopped h := by simp [fresh] at h
  count := rfl
  stops := Nat.le_refl 0
  cleared r rest left report hr := by simp [fresh] at hr

theorem Owned.run {s : Scheduler P} (h : Owned s) (ms : List (Move P)) : Owned (s.run ms) :=
  run_invariant (motive := fun _ s => Owned s) h (fun _ s m h => owned_move h (effect_move s m)) ms

/-- **Every run is in order.** -/
theorem owned_run (x : Exporter) (defaults : CheckPlan) (ms : List (Move P)) :
    Owned ((fresh x defaults : Scheduler P).run ms) :=
  (owned_fresh x defaults).run ms

/-- Every state that a move of a run has found was in order. -/
theorem owned_trace (x : Exporter) (defaults : CheckPlan) (ms : List (Move P)) :
    ∀ p ∈ (fresh x defaults).trace ms, Owned p.1 := by
  refine (run_invariant (motive := fun past s => (∀ p ∈ past, Owned p.1) ∧ Owned s)
    ⟨List.forall_mem_nil _, owned_fresh x defaults⟩ (fun past s m h => ⟨fun p hp => ?_, ?_⟩) ms).1
  · rcases List.mem_append.mp hp with hp | hp
    · exact h.1 p hp
    · exact List.mem_singleton.mp hp ▸ h.2
  · exact owned_move h.2 (effect_move s m)

/-! ### Going out of service -/

/-- A loop in service has been so before, or it is new. -/
theorem serves_of_effect {s s' : Scheduler P} {m : Move P} (hs : Owned s) (h : Effect s m s')
    {i : Nat} (hi : s'.Serves i) : s.Serves i ∨ s.loops.length ≤ i := by
  -- keys are given up, or taken by the loop that the move spawns
  cases h with
  | none | registered | stepped | ended | passed => exact Or.inl hi
  | started outer idle => exact Or.inr (by simp [(hs.idle idle).1])
  | told =>
    rw [tell_frame] at hi
    exact Or.inl hi
  | added =>
    obtain ⟨key, hkey⟩ := hi
    change (s.slots.insert _ s.loops.length).get? key = some i at hkey
    rw [Dictionary.get?_insert] at hkey
    split at hkey
    · exact Or.inr (Nat.le_of_eq (Option.some.inj hkey))
    · exact Or.inl ⟨key, hkey⟩
  | removed =>
    obtain ⟨key, hkey⟩ := hi
    change (s.slots.erase _).get? key = some i at hkey
    rw [Dictionary.get?_erase] at hkey
    split at hkey
    · cases hkey
    · exact Or.inl ⟨key, hkey⟩
  | replaced =>
    obtain ⟨key, hkey⟩ := hi
    change ((s.slots.erase _).insert _ s.loops.length).get? key = some i at hkey
    rw [Dictionary.get?_insert, Dictionary.get?_erase] at hkey
    split at hkey
    · exact Or.inr (Nat.le_of_eq (Option.some.inj hkey))
    · split at hkey
      · cases hkey
      · exact Or.inl ⟨key, hkey⟩
  | called _ ha =>
    obtain ⟨key, hkey⟩ := hi
    exact Or.inl ⟨key, (advance_frame ha).2.1 ▸ hkey⟩

/-- **A loop out of service stays out of service.** -/
theorem not_serves_run {s : Scheduler P} (hs : Owned s) {i : Nat} (hi : i < s.loops.length)
    (out : ¬ s.Serves i) (ms : List (Move P)) : ¬ (s.run ms).Serves i := by
  induction ms generalizing s with
  | nil => exact out
  | cons m ms ih =>
    have hm := effect_move s m
    refine ih (owned_move hs hm) (Nat.lt_of_lt_of_le hi hm.loopsGoOn.1) fun hserves => ?_
    exact (serves_of_effect hs hm hserves).elim out (Nat.not_le.mpr hi)

end Scheduler

end HealthMonitor
