import HealthMonitor.Proofs.Scheduler.Clearing

/-!
# Stopping is a barrier

A stop returns when every loop it waited for is over and no other call retires loops any more. By
then every loop that was ever spawned is over, whoever had taken it out of service and whenever it
was added, and every clearing that a removal or an update brought on has been carried out
(`stop_returns_settled`). From then on only time passes.

* The loops follow from their ownership: with no other call in flight, a loop that is not over would
  be in service, and the stop would wait for it.
* The clearings follow from their account: nothing is ahead of no calls.
-/

namespace HealthMonitor

namespace Scheduler

variable {P : Type}

/-! ### Standing still -/

/-- Nothing can happen to a scheduler but that time passes. -/
structure Still (s : Scheduler P) : Prop where
  stopped : s.lifecycle = .stopped
  calls : s.calls = []
  ended : ∀ l ∈ s.loops, l.isDone = true

theorem endProbe_of_isDone {l : CheckLoop P} (done : l.isDone = true) (ending : ProbeEnd) :
    l.endProbe ending = l := by
  rcases l.endProbe_cases ending with h | ⟨a, ha, -⟩
  · exact h
  · simp [CheckLoop.isDone, ha] at done

theorem Still.move {s : Scheduler P} (h : s.Still) (m : Move P) :
    s.move m = { s with now := (s.move m).now } := by
  have hm := effect_move s m
  generalize s.move m = s' at hm
  cases hm with
  | none => rfl
  | registered probe idle => simp [h.stopped] at idle
  | started outer idle => simp [h.stopped] at idle
  | told running => simp [h.stopped] at running
  | added _ running => simp [h.stopped] at running
  | removed _ running => simp [h.stopped] at running
  | replaced _ running => simp [h.stopped] at running
  | stepped loop step =>
    have alive := (CheckLoop.stepped_of_step step).alive
    simp [h.ended _ (List.mem_of_getElem? loop)] at alive
  | called call => simp [h.calls] at call
  | ended i ending =>
    have hsame : s.loops.modify i (fun l => l.endProbe ending) = s.loops := by
      refine List.ext_getElem? fun j => ?_
      rw [List.getElem?_modify]
      cases hl : s.loops[j]? with
      | none => rfl
      | some l =>
        by_cases hij : i = j
        · simp [hij, endProbe_of_isDone (h.ended l (List.mem_of_getElem? hl))]
        · simp [hij]
    rw [endProbe, modifyLoop, hsame]
  | passed => rfl

/-- **Standing still lasts.** -/
theorem Still.run {s : Scheduler P} (h : s.Still) (ms : List (Move P)) :
    s.run ms = { s with now := (s.run ms).now } := by
  induction ms generalizing s with
  | nil => rfl
  | cons m ms ih =>
    have hm := h.move m
    have hstill : (s.move m).Still := by
      rw [hm]
      exact ⟨h.stopped, h.calls, h.ended⟩
    rw [run_cons, ih hstill, hm]

/-! ### The return of a stop -/

/-- The stop in flight at a place returns by its next step. -/
def StopReturns (s : Scheduler P) (j : Nat) : Prop :=
  s.calls[j]? = some (.stopping []) ∧ s.retiring = 0

instance (s : Scheduler P) (j : Nat) : Decidable (s.StopReturns j) :=
  inferInstanceAs (Decidable (_ ∧ _))

/-- A stop that returns is alone, and all loops are over. -/
theorem Owned.still {s : Scheduler P} (hs : Owned s) {j : Nat} (h : s.StopReturns j) :
    (s.move (.call j)).Still ∧ (s.move (.call j)).retiring = 0 := by
  obtain ⟨hc, hretiring⟩ := h
  have hmem : Call.stopping [] ∈ s.calls := List.mem_of_getElem? hc
  have hpos : 0 < s.calls.countP Call.isStop := List.countP_pos_iff.mpr ⟨_, hmem, rfl⟩
  have hstops := hs.stops
  have hstopped : s.lifecycle = .stopped := by
    by_contra hne
    rw [if_neg hne] at hstops
    omega
  rw [if_pos hstopped] at hstops
  have hothers : (s.calls.countP fun c => !c.isStop) = 0 := hs.count.symm.trans hretiring
  have hsingle : s.calls.length = 1 := by
    have := List.length_eq_countP_add_countP Call.isStop (l := s.calls)
    simp only [Bool.not_eq_true, Bool.decide_eq_false] at this
    omega
  obtain ⟨c, hcalls⟩ := List.length_eq_one_iff.mp hsingle
  obtain rfl : Call.stopping [] = c := List.mem_singleton.mp (hcalls ▸ hmem)
  obtain rfl : j = 0 := by
    have := (List.getElem?_eq_some_iff.mp hc).1
    omega
  have hadvance : s.advance (.stopping []) = some (s.log .stopped, none) := if_pos hretiring
  rw [move_call hc hadvance]
  refine ⟨⟨hstopped, by rw [hcalls]; rfl, fun l hl => ?_⟩, hretiring⟩
  obtain ⟨i, hi⟩ := List.getElem?_of_mem hl
  by_contra halive
  replace halive : l.isDone = false := by simpa using halive
  rcases hs.loop i l hi halive with hserved | ⟨c, hc, hkind, -⟩
  · -- a loop in service is one that the stop still waits for
    obtain ⟨c, hc, -, hawaited⟩ := hs.stopped hstopped i l hi halive hserved
    obtain rfl := List.mem_singleton.mp (hcalls ▸ hc)
    cases hawaited
  · obtain rfl := List.mem_singleton.mp (hcalls ▸ hc)
    cases hkind

/-- What a stop leaves behind when it returns, after a run. -/
structure Settled (past : List (Scheduler P × Move P)) (s : Scheduler P) : Prop where
  /-- Every loop that was ever spawned is over. -/
  ended : ∀ l ∈ s.loops, l.isDone = true
  retiring : s.retiring = 0
  /-- Every clearing that was brought on has been carried out, each as often. -/
  cleared : (past.flatMap fun p => p.1.broughtOn p.2).Perm
    (past.flatMap fun p => p.1.carriedOut p.2)
  /-- To carry one out was to clear the place, when the loop was over. -/
  clearing : ∀ p ∈ past, ∀ i a, (i, a) ∈ p.1.carriedOut p.2 →
    ∃ l, p.1.loops[i]? = some l ∧ l.isDone = true ∧
      (p.1.move p.2).metrics = p.1.metrics.clear (p.1.labelsOf l) a
  /-- From then on only time passes: no loop is spawned, no check recorded, no series changed. -/
  still : ∀ ms, s.run ms = { s with now := (s.run ms).now }

/-- **Stopping is a barrier**: however calls, loops and probes have interleaved, a stop that returns
leaves a settled scheduler behind. -/
theorem stop_returns_settled (x : Exporter) (defaults : CheckPlan) (ms : List (Move P)) (j : Nat)
    (h : ((fresh x defaults).run ms).StopReturns j) :
    Settled ((fresh x defaults).trace (ms ++ [Move.call j]))
      ((fresh x defaults).run (ms ++ [Move.call j])) := by
  have hrun := run_concat (fresh x defaults) ms (.call j)
  obtain ⟨hstill, hretiring⟩ := (owned_run x defaults ms).still h
  rw [← hrun] at hstill hretiring
  refine ⟨hstill.ended, hretiring, ?_, fun p hp i a ha => ?_, hstill.run⟩
  · have haccount := clearings_run x defaults (ms ++ [Move.call j])
    rwa [hstill.calls, List.flatMap_nil, List.append_nil] at haccount
  · exact metrics_of_carriedOut (owned_trace x defaults _ p hp) ha

/-! ### A stop during a removal -/

/-- An endpoint is taken out of service and everything is stopped while its loop publishes. The stop
has nothing to wait for but the removal, which clears five places. -/
def stopDuringRemoval : List (Move Unit) :=
  [[.register (database [Endpoint.plain "h" 1]) (), .start none],
    [.loop 0, .ending 0 (.returned (.ok ())), .loop 0, .loop 0],
    [.remove "db" "h" 1, .stop, .call 1, .call 0],
    List.replicate 6 (.loop 0), List.replicate 8 (.call 0)].flatten

theorem stopDuringRemoval_settled :
    (newApp.run stopDuringRemoval).StopReturns 0 ∧
      Settled (newApp.trace (stopDuringRemoval ++ [Move.call 0]))
        (newApp.run (stopDuringRemoval ++ [Move.call 0])) := by
  have returns : (newApp.run stopDuringRemoval).StopReturns 0 := by decide +kernel
  exact ⟨returns, stop_returns_settled _ _ _ _ returns⟩

end Scheduler

end HealthMonitor
