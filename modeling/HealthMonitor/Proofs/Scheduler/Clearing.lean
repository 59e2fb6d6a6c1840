import HealthMonitor.Proofs.Scheduler.Ownership

/-!
# The account of clearings

A call that takes loops out of service clears the places where their endpoints have left series,
one place a step. `Call.ahead` is what a call in flight still clears. What the moves of a run have
brought on is what they have carried out and what the calls in flight have ahead
(`clearings_run`), and to carry a clearing out is to clear that place of the exporter, when the loop
is over (`metrics_of_carriedOut`).
-/

namespace HealthMonitor

/-- The places that the retirement of a loop still clears at a stage. -/
def RetireStage.ahead (r : Retired) : RetireStage → List Exporter.Removal
  | .clear left => left
  | .signal | .join => r.removals

/-- The places that a call in flight still clears, each with the loop whose series are there. -/
def Call.ahead : Call → List (Nat × Exporter.Removal)
  | .retiring (r :: rest) stage _ =>
    (stage.ahead r).map (r.loop, ·) ++ rest.flatMap fun r => r.removals.map (r.loop, ·)
  | _ => []

/-- The place that a call in flight clears by its next step, if it clears one. -/
def Call.clearing : Call → List (Nat × Exporter.Removal)
  | .retiring (r :: _) (.clear (a :: _)) _ => [(r.loop, a)]
  | _ => []

namespace Scheduler

variable {P : Type}

/-- What turns out to be left when a call in flight clears a place. -/
def foundBy (s : Scheduler P) (c : Call) : List (Nat × Exporter.Removal) :=
  c.clearing.flatMap fun p => (s.clearPlace p.1 p.2).2.map (p.1, ·)

/-- The call in flight that a move drives on, if it does that. -/
def driven (s : Scheduler P) : Move P → List Call
  | .call j => s.calls[j]?.toList
  | _ => []

/-- The clearing that a move carries out, if it carries one out. -/
def carriedOut (s : Scheduler P) (m : Move P) : List (Nat × Exporter.Removal) :=
  (s.driven m).flatMap Call.clearing

/-- The clearings that a move brings on: those of the calls that it makes, and those of which it
finds out. -/
def broughtOn (s : Scheduler P) (m : Move P) : List (Nat × Exporter.Removal) :=
  ((s.move m).calls.drop s.calls.length).flatMap Call.ahead ++ (s.driven m).flatMap s.foundBy

/-! ### The account of clearings -/

theorem clearing_subset_ahead (c : Call) : c.clearing ⊆ c.ahead := by
  unfold Call.clearing
  split
  next r rest a left report =>
    intro p hp
    rw [List.mem_singleton.mp hp]
    exact List.mem_append_left _ (List.mem_map_of_mem List.mem_cons_self)
  next => exact List.nil_subset _

theorem mem_calls_of_driven {s : Scheduler P} {m : Move P} {c : Call} (h : c ∈ s.driven m) :
    c ∈ s.calls := by
  cases m with
  | call j => exact List.mem_of_getElem? (by simpa [driven] using h)
  | register | start | stop | add | remove | update | loop | ending | clock => cases h

theorem carriedOut_call {s : Scheduler P} {j : Nat} {c : Call} (hc : s.calls[j]? = some c) :
    s.carriedOut (.call j) = c.clearing := by
  rw [carriedOut, driven, hc, Option.toList_some, List.flatMap_singleton]

/-- What a move carries out has been ahead. -/
theorem ahead_of_carriedOut {s : Scheduler P} {m : Move P} {p : Nat × Exporter.Removal}
    (h : p ∈ s.carriedOut m) : p ∈ s.calls.flatMap Call.ahead := by
  obtain ⟨c, hc, hp⟩ := List.mem_flatMap.mp h
  exact List.mem_flatMap.mpr ⟨c, mem_calls_of_driven hc, clearing_subset_ahead c hp⟩

/-- A step of a call clears what it has ahead, in order, and what turns out to be left. -/
theorem advance_ahead {s s' : Scheduler P} {c : Call} {after : Option Call}
    (h : Advance s c s' after) :
    (c.ahead ++ s.foundBy c).Perm (c.clearing ++ after.toList.flatMap Call.ahead) := by
  cases h with
  | joinedByStop | stopReturned | returned => simp [Call.ahead, foundBy, Call.clearing]
  | signalled | joined =>
    simp [Call.ahead, foundBy, Call.clearing, RetireStage.ahead]
  | @retired r rest report =>
    cases rest <;> simp [Call.ahead, foundBy, Call.clearing, RetireStage.ahead]
  | cleared =>
    simp only [Call.ahead, foundBy, Call.clearing, RetireStage.ahead, List.map_cons,
      List.map_append, List.flatMap_cons, List.flatMap_nil, List.append_nil, Option.toList_some,
      List.cons_append, List.nil_append, List.append_assoc]
    refine List.Perm.cons _ ?_
    rw [← List.append_assoc]
    exact List.perm_append_comm

/-- A move that drives no call in flight leaves the calls and may make new ones. -/
theorem calls_of_not_driven {s s' : Scheduler P} {m : Move P} (h : Effect s m s')
    (hm : ∀ j, m ≠ .call j) : ∃ made, s'.calls = s.calls ++ made := by
  cases h with
  | told | removed | replaced => exact ⟨_, rfl⟩
  | started =>
    refine ⟨[], ?_⟩
    rw [List.append_nil, begun, serveAll_frame]
    rfl
  | called => exact absurd rfl (hm _)
  | none | registered | added | stepped | ended | passed => exact ⟨[], (List.append_nil _).symm⟩

/-- A call in flight that cannot take a step has nothing to clear at once. -/
theorem clearing_of_waiting {s : Scheduler P} {c : Call} (h : s.advance c = none) :
    c.clearing = [] := by
  unfold advance at h
  split at h <;> first | rfl | cases h

/-- **Every move keeps the account**: what was ahead and what the move brings on is what it carries
out and what is ahead then. -/
theorem clearings_move (s : Scheduler P) (m : Move P) :
    (s.calls.flatMap Call.ahead ++ s.broughtOn m).Perm
      (s.carriedOut m ++ (s.move m).calls.flatMap Call.ahead) := by
  by_cases hm : ∃ j, m = .call j
  · obtain ⟨j, rfl⟩ := hm
    by_cases hwait : ∀ c, s.calls[j]? = some c → s.advance c = none
    · have hnone (c : Call) (hc : c ∈ s.calls[j]?.toList) : c.clearing = [] :=
        clearing_of_waiting (hwait c (by simpa using hc))
      have hcarried : s.carriedOut (.call j) = [] := List.flatMap_eq_nil_iff.mpr hnone
      have hfound : s.broughtOn (.call j) = [] := by
        rw [broughtOn, move_call_of_waiting hwait, List.drop_length, List.flatMap_nil,
          List.nil_append]
        exact List.flatMap_eq_nil_iff.mpr fun c hc => by rw [foundBy, hnone c hc]; rfl
      rw [hcarried, hfound, move_call_of_waiting hwait, List.append_nil, List.nil_append]
    · push Not at hwait
      obtain ⟨c, hc, ha⟩ := hwait
      obtain ⟨⟨s', after⟩, ha⟩ := Option.ne_none_iff_exists'.mp ha
      have hcalls : (s.move (.call j)).calls = callsAfter s.calls j after := by
        rw [move_call hc ha]
      have hfew : s.broughtOn (.call j) = s.foundBy c := by
        have hlength : (callsAfter s.calls j after).length ≤ s.calls.length := by
          cases after <;> simp [callsAfter, List.length_eraseIdx]
          split <;> omega
        simp [broughtOn, hcalls, List.drop_eq_nil_of_le hlength, driven, hc]
      rw [hfew, hcalls, carriedOut_call hc]
      -- the call that has taken the step against what is left of it, the others unchanged
      have hothers := (callsAfter_perm hc after).flatMap_right Call.ahead
      rw [List.flatMap_cons, List.flatMap_append] at hothers
      have hstep := advance_ahead (advance_some ha)
      refine List.perm_iff_count.mpr fun p => ?_
      have hothers := hothers.count_eq p
      have hstep := hstep.count_eq p
      simp only [List.count_append] at hothers hstep ⊢
      omega
  · push Not at hm
    obtain ⟨made, hmade⟩ := calls_of_not_driven (effect_move s m) hm
    have hdriven : s.driven m = [] := by
      cases m with
      | call j => exact absurd rfl (hm j)
      | _ => rfl
    simp [broughtOn, carriedOut, hdriven, hmade]

/-- What the moves of a run have brought on is what they have carried out and what the calls in
flight still have ahead. -/
theorem clearings_run (x : Exporter) (defaults : CheckPlan) (ms : List (Move P)) :
    (((fresh x defaults).trace ms).flatMap fun p => p.1.broughtOn p.2).Perm
      ((((fresh x defaults).trace ms).flatMap fun p => p.1.carriedOut p.2) ++
        ((fresh x defaults).run ms).calls.flatMap Call.ahead) := by
  refine run_invariant (motive := fun past s => (past.flatMap fun p => p.1.broughtOn p.2).Perm
    ((past.flatMap fun p => p.1.carriedOut p.2) ++ s.calls.flatMap Call.ahead)) ?_ ?_ ms
  · simp [fresh]
  · intro past s m h
    simp only [List.flatMap_append, List.flatMap_singleton]
    calc (past.flatMap fun p => p.1.broughtOn p.2) ++ s.broughtOn m
      _ |>.Perm (((past.flatMap fun p => p.1.carriedOut p.2) ++ s.calls.flatMap Call.ahead) ++
          s.broughtOn m) := h.append_right _
      _ |>.Perm ((past.flatMap fun p => p.1.carriedOut p.2) ++
          (s.carriedOut m ++ (s.move m).calls.flatMap Call.ahead)) := by
        rw [List.append_assoc]
        exact (clearings_move s m).append_left _
      _ |>.Perm (((past.flatMap fun p => p.1.carriedOut p.2) ++ s.carriedOut m) ++
          (s.move m).calls.flatMap Call.ahead) := by rw [List.append_assoc]

/-- What a move carries out clears a place of what the endpoint of a loop has left there, once the
loop is over. -/
theorem metrics_of_carriedOut {s : Scheduler P} (hs : Owned s) {m : Move P} {i : Nat}
    {a : Exporter.Removal} (h : (i, a) ∈ s.carriedOut m) :
    ∃ l, s.loops[i]? = some l ∧ l.isDone = true ∧
      (s.move m).metrics = s.metrics.clear (s.labelsOf l) a := by
  obtain ⟨c, hc, ha⟩ := List.mem_flatMap.mp h
  cases m with
  | call j =>
    replace hc : s.calls[j]? = some c := by simpa [driven] using hc
    have hmem : c ∈ s.calls := List.mem_of_getElem? hc
    unfold Call.clearing at ha
    split at ha
    next r rest _ left report =>
      cases List.mem_singleton.mp ha
      have hlength := hs.held _ hmem r.loop (by simp [Call.awaited])
      have hl := List.getElem?_eq_getElem hlength
      have hdone : s.loops[r.loop].isDone = true := by
        simpa [isDone, hl] using hs.cleared r rest _ report hmem
      refine ⟨_, hl, hdone, ?_⟩
      rw [move_call hc rfl]
      change (s.clearPlace r.loop a).1.metrics = _
      simp only [clearPlace, hl]
    next => cases ha
  | _ => cases hc

end Scheduler

end HealthMonitor
