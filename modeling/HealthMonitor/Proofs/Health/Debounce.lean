import HealthMonitor.Health.Tracker
import Mathlib.Data.List.Induction

/-!
# The debounce law

What a tracker makes of a row of outcomes is told by the row itself. Its two counters are the
lengths of the runs at the end of the row (`trailing`). Its health is the last outcome that settles
one: the first outcome does, and every outcome that ends a run as long as its polarity needs
(`Settles`). A transition is told by the healths before and after it (`Transition.between`).

`debounce_law` puts these together and draws the consequence that gives the law its name: a health
flips with the outcome that completes a run of the needed length, and a shorter run that is broken
off leaves no trace.
-/

namespace HealthMonitor

namespace Transition

/-- The flip of a known health to `healthy`. -/
def flipTo : Bool → Transition
  | true => .becameHealthy
  | false => .becameUnhealthy

/-- What happens between two healths, of which the first may not be known yet. -/
def between : Option Bool → Bool → Transition
  | none, after => .initial after
  | some before, after => if before = after then .unchanged else flipTo after

end Transition

namespace Tracker

/-- The length of the run of outcomes `o` at the end of a row. -/
def trailing (o : Bool) (outcomes : List Bool) : Nat :=
  (outcomes.reverse.takeWhile (· == o)).length

/-- The length that a run of outcomes `o` needs to flip the health. -/
def needed (failureThreshold successThreshold : Nat) (o : Bool) : Nat :=
  if o then successThreshold else failureThreshold

/-- Whether the outcome at a place settles the health: the first of a row does, and each that ends a
run of the needed length. -/
def Settles (failureThreshold successThreshold : Nat) (outcomes : List Bool) (i : Nat) : Prop :=
  ∃ o, outcomes[i]? = some o ∧
    (i = 0 ∨ needed failureThreshold successThreshold o ≤ trailing o (outcomes.take (i + 1)))

/-- The counter of outcomes `o`. -/
def run (t : Tracker) (o : Bool) : Nat :=
  if o then t.successes else t.failures

/-! ### Runs at the end of a row -/

theorem trailing_concat_self (o : Bool) (os : List Bool) :
    trailing o (os ++ [o]) = trailing o os + 1 := by
  simp [trailing]

theorem trailing_concat_of_ne {o p : Bool} (h : p ≠ o) (os : List Bool) :
    trailing o (os ++ [p]) = 0 := by
  simp [trailing, h]

theorem trailing_le_length (o : Bool) (os : List Bool) : trailing o os ≤ os.length := by
  have hle := (List.takeWhile_prefix (p := (· == o)) (l := os.reverse)).length_le
  rwa [List.length_reverse] at hle

theorem trailing_append_replicate (o : Bool) (os : List Bool) (k : Nat) :
    trailing o (os ++ List.replicate k o) = trailing o os + k := by
  induction k with
  | zero => simp
  | succ k ih =>
    rw [List.replicate_succ', ← List.append_assoc, trailing_concat_self, ih, Nat.add_assoc]

/-! ### One record -/

/-- The counter of the outcome goes on; the other starts anew. -/
theorem run_record (t : Tracker) (o p : Bool) :
    (t.record p).2.run o = if p = o then t.run o + 1 else 0 := by
  cases o <;> cases p <;> rfl

theorem thresholds_record (t : Tracker) (p : Bool) :
    (t.record p).2.failureThreshold = t.failureThreshold ∧
      (t.record p).2.successThreshold = t.successThreshold := by
  cases p <;> exact ⟨rfl, rfl⟩

/-- An outcome flips the health when it speaks against it and ends a run of the needed length. -/
theorem judge_count (t : Tracker) (healthy p : Bool) :
    (t.count p).judge healthy p =
      if healthy ≠ p ∧ needed t.failureThreshold t.successThreshold p ≤ t.run p + 1 then .flipTo p
      else .unchanged := by
  cases healthy <;> cases p <;> simp [judge, count, run, needed, Transition.flipTo]

/-- The first outcome is the health, whatever the thresholds are. -/
theorem record_of_unknown {t : Tracker} (h : t.healthy = none) (p : Bool) :
    (t.record p).1 = .initial p ∧ (t.record p).2.healthy = some p := by
  simp [record, h, healthAfter]

/-- A flip makes the outcome the health, and nothing else changes a known health. -/
theorem record_of_known {t : Tracker} {healthy : Bool} (h : t.healthy = some healthy) (p : Bool) :
    (t.record p).2.healthy =
        some (if needed t.failureThreshold t.successThreshold p ≤ t.run p + 1 then p else healthy) ∧
      (t.record p).1 = .between (some healthy)
        (if needed t.failureThreshold t.successThreshold p ≤ t.run p + 1 then p else healthy) := by
  simp only [record, h, judge_count]
  by_cases same : healthy = p
  · simp [same, healthAfter, Transition.between]
  · by_cases long : needed t.failureThreshold t.successThreshold p ≤ t.run p + 1
    · rw [if_pos ⟨same, long⟩, if_pos long]
      refine ⟨?_, by simp [Transition.between, same]⟩
      cases p <;> rfl
    · rw [if_neg fun both => long both.2, if_neg long]
      exact ⟨rfl, by simp [Transition.between]⟩

/-- A transition is what happens between the healths before and after it. -/
theorem transition_record (t : Tracker) (p : Bool) :
    ∃ after, (t.record p).2.healthy = some after ∧
      (t.record p).1 = Transition.between t.healthy after := by
  rcases h : t.healthy with _ | healthy
  · obtain ⟨htransition, hafter⟩ := record_of_unknown h p
    exact ⟨p, hafter, htransition⟩
  · obtain ⟨hafter, htransition⟩ := record_of_known h p
    exact ⟨_, hafter, htransition⟩

/-! ### Rows of outcomes -/

theorem recordAll_append (t : Tracker) (os ps : List Bool) :
    t.recordAll (os ++ ps) = (t.recordAll os).recordAll ps :=
  List.foldl_append

theorem recordAll_concat (t : Tracker) (os : List Bool) (p : Bool) :
    t.recordAll (os ++ [p]) = ((t.recordAll os).record p).2 :=
  recordAll_append t os [p]

section Fold

variable (f s : Nat)

theorem thresholds_recordAll (os : List Bool) :
    ((fresh f s).recordAll os).failureThreshold = f ∧
      ((fresh f s).recordAll os).successThreshold = s := by
  induction os using List.reverseRecOn with
  | nil => exact ⟨rfl, rfl⟩
  | append_singleton os p ih =>
    rw [recordAll_concat, (thresholds_record _ p).1, (thresholds_record _ p).2]
    exact ih

/-- **The counters are the runs at the end of the row.** -/
theorem run_recordAll (os : List Bool) (o : Bool) :
    ((fresh f s).recordAll os).run o = trailing o os := by
  induction os using List.reverseRecOn with
  | nil => cases o <;> rfl
  | append_singleton os p ih =>
    rw [recordAll_concat, run_record, ih]
    split
    next heq => rw [heq, trailing_concat_self]
    next hne => rw [trailing_concat_of_ne hne]

/-- The health is unknown until the first outcome, and never again. -/
theorem healthy_recordAll_eq_none_iff (os : List Bool) :
    ((fresh f s).recordAll os).healthy = none ↔ os = [] := by
  induction os using List.reverseRecOn with
  | nil => exact iff_of_true rfl rfl
  | append_singleton os p _ =>
    obtain ⟨after, hafter, -⟩ := transition_record ((fresh f s).recordAll os) p
    rw [recordAll_concat, hafter]
    simp

variable {f s} in
theorem ne_nil_of_healthy {os : List Bool} {o : Bool}
    (h : ((fresh f s).recordAll os).healthy = some o) : os ≠ [] := by
  intro hnil
  rw [(healthy_recordAll_eq_none_iff f s os).mpr hnil] at h
  cases h

/-- The first outcome becomes the health, and so does one that ends a run of the needed length. -/
theorem healthy_recordAll_concat (os : List Bool) (p : Bool) :
    ((fresh f s).recordAll (os ++ [p])).healthy =
      if os = [] ∨ needed f s p ≤ trailing p (os ++ [p]) then some p
      else ((fresh f s).recordAll os).healthy := by
  rw [recordAll_concat, trailing_concat_self, ← run_recordAll f s]
  rcases h : ((fresh f s).recordAll os).healthy with _ | healthy
  · rw [(record_of_unknown h p).2, if_pos (Or.inl ((healthy_recordAll_eq_none_iff f s os).mp h))]
  · have hne : os ≠ [] := ne_nil_of_healthy h
    rw [(record_of_known h p).1, (thresholds_recordAll f s os).1, (thresholds_recordAll f s os).2]
    simp only [hne, false_or]
    split_ifs <;> rfl

/-! ### The outcome that settles the health -/

/-- Whether an outcome settles the health does not depend on those behind it. -/
theorem settles_concat_of_lt {os : List Bool} {i : Nat} (h : i < os.length) (p : Bool) :
    Settles f s (os ++ [p]) i ↔ Settles f s os i := by
  have htake : (os ++ [p]).take (i + 1) = os.take (i + 1) :=
    List.take_append_of_le_length h
  rw [Settles, Settles, List.getElem?_append_left h, htake]

/-- The last outcome settles it if it is the first or its run is long enough. -/
theorem settles_concat_length (os : List Bool) (p : Bool) :
    Settles f s (os ++ [p]) os.length ↔ os = [] ∨ needed f s p ≤ trailing p (os ++ [p]) := by
  have htake : (os ++ [p]).take (os.length + 1) = os ++ [p] := List.take_of_length_le (by simp)
  simp [Settles, htake]

theorem lt_length_of_settles {os : List Bool} {i : Nat} (h : Settles f s os i) :
    i < os.length := by
  obtain ⟨o, ho, -⟩ := h
  exact (List.getElem?_eq_some_iff.mp ho).1

/-- **The health is the last outcome that settles one.** -/
theorem healthy_of_last_settles {os : List Bool} (hne : os ≠ []) :
    ∃ i o, os[i]? = some o ∧ Settles f s os i ∧ (∀ j, i < j → ¬ Settles f s os j) ∧
      ((fresh f s).recordAll os).healthy = some o := by
  induction os using List.reverseRecOn with
  | nil => exact absurd rfl hne
  | append_singleton os p ih =>
    have hlast : ∀ j, os.length < j → ¬ Settles f s (os ++ [p]) j := by
      intro j hj hset
      have hlt := lt_length_of_settles f s hset
      rw [List.length_append, List.length_singleton] at hlt
      omega
    by_cases hset : Settles f s (os ++ [p]) os.length
    · refine ⟨os.length, p, List.getElem?_concat_length .., hset, hlast, ?_⟩
      rw [healthy_recordAll_concat, if_pos ((settles_concat_length f s os p).mp hset)]
    · have hnot := mt (settles_concat_length f s os p).mpr hset
      obtain ⟨i, o, hi, hsettles, hafter, hhealth⟩ := ih (not_or.mp hnot).1
      have hlt := lt_length_of_settles f s hsettles
      refine ⟨i, o, (List.getElem?_append_left hlt).trans hi,
        (settles_concat_of_lt f s hlt p).mpr hsettles, ?_, ?_⟩
      · intro j hij hj
        rcases Nat.lt_trichotomy j os.length with hjlt | rfl | hjgt
        · exact hafter j hij ((settles_concat_of_lt f s hjlt p).mp hj)
        · exact hset hj
        · exact hlast j hjgt hj
      · rw [healthy_recordAll_concat, if_neg hnot, hhealth]

/-! ### Runs against the health -/

variable {f s} {os : List Bool} {o : Bool}

/-- A run against the health is shorter than it needs to be. -/
theorem trailing_lt_needed (hpos : 1 ≤ needed f s (!o))
    (h : ((fresh f s).recordAll os).healthy = some o) : trailing (!o) os < needed f s (!o) := by
  induction os using List.reverseRecOn with
  | nil => exact hpos
  | append_singleton os p _ =>
    by_cases hp : p = o
    · rw [trailing_concat_of_ne (by simp [hp])]
      exact hpos
    · obtain rfl : p = !o := Bool.eq_not_of_ne hp
      by_contra hlong
      rw [healthy_recordAll_concat, if_pos (Or.inr (Nat.le_of_not_lt hlong))] at h
      simp at h

/-- The health flips with the outcome that completes a run of the needed length. -/
theorem flips_iff (hpos : 1 ≤ needed f s (!o))
    (h : ((fresh f s).recordAll os).healthy = some o) :
    (((fresh f s).recordAll os).record (!o)).1 = .flipTo (!o) ↔
      trailing (!o) os + 1 = needed f s (!o) := by
  have hshort := trailing_lt_needed hpos h
  obtain ⟨-, htransition⟩ := record_of_known h (!o)
  rw [htransition, run_recordAll, (thresholds_recordAll f s os).1, (thresholds_recordAll f s os).2]
  split_ifs with hlong
  · exact iff_of_true (by simp [Transition.between]) (by omega)
  · exact iff_of_false (by cases o <;> simp [Transition.between, Transition.flipTo]) (by omega)

/-- A run against the health that stays too short leaves it as it is. -/
theorem healthy_of_short_run (h : ((fresh f s).recordAll os).healthy = some o) {k : Nat}
    (hshort : trailing (!o) os + k < needed f s (!o)) :
    ((fresh f s).recordAll (os ++ List.replicate k (!o))).healthy = some o := by
  induction k with
  | zero => simpa using h
  | succ k ih =>
    have hk := ih (by omega)
    have hne : os ++ List.replicate k (!o) ≠ [] := ne_nil_of_healthy hk
    rw [List.replicate_succ', ← List.append_assoc, healthy_recordAll_concat, hk,
      trailing_concat_self, trailing_append_replicate, if_neg (not_or.mpr ⟨hne, by omega⟩)]

/-- A short run that is broken off leaves no trace. -/
theorem short_run_forgotten (h : ((fresh f s).recordAll os).healthy = some o) {k : Nat}
    (hshort : trailing (!o) os + k < needed f s (!o)) :
    ((fresh f s).recordAll (os ++ List.replicate k (!o) ++ [o])).healthy = some o ∧
      ((fresh f s).recordAll (os ++ List.replicate k (!o) ++ [o])).run (!o) = 0 := by
  constructor
  · rw [healthy_recordAll_concat, healthy_of_short_run h hshort, ite_self]
  · rw [run_recordAll, trailing_concat_of_ne (by simp)]

end Fold

/-- **The debounce law.** After a row of outcomes the counters are the runs at its end, and within
32 bits as long as the row is; the health is the last outcome that settles one; each transition is
told by the healths around it, the first being `initial`. So a health flips exactly with the outcome
that completes a run of the needed length, and a shorter run that is broken off leaves no trace. -/
theorem debounce_law {f s : Nat} (hf : 1 ≤ f) (hs : 1 ≤ s) {os : List Bool} (hne : os ≠ []) :
    ((fresh f s).recordAll os).failures = trailing false os ∧
    ((fresh f s).recordAll os).successes = trailing true os ∧
    (os.length < UInt32.size → ((fresh f s).recordAll os).failures < UInt32.size ∧
      ((fresh f s).recordAll os).successes < UInt32.size) ∧
    (∃ i o, os[i]? = some o ∧ Settles f s os i ∧ (∀ j, i < j → ¬ Settles f s os j) ∧
      ((fresh f s).recordAll os).healthy = some o) ∧
    (∀ i o, os[i]? = some o → ∃ after,
      ((fresh f s).recordAll (os.take (i + 1))).healthy = some after ∧
      (((fresh f s).recordAll (os.take i)).record o).1 =
        if i = 0 then .initial o
        else .between ((fresh f s).recordAll (os.take i)).healthy after) ∧
    (∀ o, ((fresh f s).recordAll os).healthy = some o →
      ((((fresh f s).recordAll os).record (!o)).1 = .flipTo (!o) ↔
        trailing (!o) os + 1 = needed f s (!o)) ∧
      ∀ k, trailing (!o) os + k < needed f s (!o) →
        ((fresh f s).recordAll (os ++ List.replicate k (!o) ++ [o])).healthy = some o ∧
        ((fresh f s).recordAll (os ++ List.replicate k (!o) ++ [o])).run (!o) = 0) := by
  have hfailures : ((fresh f s).recordAll os).failures = trailing false os :=
    run_recordAll f s os false
  have hsuccesses : ((fresh f s).recordAll os).successes = trailing true os :=
    run_recordAll f s os true
  refine ⟨hfailures, hsuccesses, fun hlength => ?_, healthy_of_last_settles f s hne,
    fun i o hi => ?_, fun o ho => ?_⟩
  · rw [hfailures, hsuccesses]
    exact ⟨Nat.lt_of_le_of_lt (trailing_le_length false os) hlength,
      Nat.lt_of_le_of_lt (trailing_le_length true os) hlength⟩
  · obtain ⟨after, hafter, htransition⟩ := transition_record ((fresh f s).recordAll (os.take i)) o
    have htake : os.take (i + 1) = os.take i ++ [o] := by
      rw [List.take_add_one, hi, Option.toList_some]
    refine ⟨after, by rw [htake, recordAll_concat, hafter], ?_⟩
    rw [htransition]
    split
    next hzero =>
      subst hzero
      rw [List.take_zero] at hafter ⊢
      exact congrArg Transition.initial (Option.some.inj hafter).symm
    next => rfl
  · have hpos : 1 ≤ needed f s (!o) := by
      cases o
      · exact hs
      · exact hf
    exact ⟨flips_iff hpos ho, fun k hk => short_run_forgotten ho hk⟩

/-- Three failures in a row are needed: after two of them the third flips the health, and a success
makes them count for nothing. -/
theorem third_failure_flips :
    (1 ≤ 3 ∧ 1 ≤ 2 ∧ [true, false, false] ≠ []) ∧
      (((fresh 3 2).recordAll [true, false, false]).record false).1 = .becameUnhealthy ∧
      ((fresh 3 2).recordAll [true, false, false, true]).healthy = some true ∧
      ((fresh 3 2).recordAll [true, false, false, true]).failures = 0 := by
  refine ⟨by decide, ?_⟩
  obtain ⟨-, -, -, -, -, runs⟩ := debounce_law (by decide : 1 ≤ 3) (by decide : 1 ≤ 2)
    (by decide : [true, false, false] ≠ [])
  obtain ⟨flips, forgotten⟩ := runs true rfl
  exact ⟨flips.mpr (by decide), forgotten 0 (by decide)⟩

end Tracker

end HealthMonitor
